import ProfileConnector.Proofs.Path.ArrayRoot

/-!
Normal forms that are normalized once more. Only blanks at the end of a normal form are lost then, and a
normal form ends in a blank just if its last segment is let through with a line break behind it. Whether the
path is then read as something else depends on whether the line break stands outside of brackets.
-/

namespace ProfileConnector.Path

open Outcome Text

/-! ## Blanks at the end of a path -/

theorem isBreak_of_blank {point : CodePoint} (blank : isBlankPoint point = true) : isBreak point = false :=
  isBreak_of_holds rfl rfl blank

theorem stays_blanks {spot : Spot} (within : spot ≠ .outside) {blanks : Text}
    (blank : ∀ point ∈ blanks, isBlankPoint point = true) : spot.Stays blanks := by
  induction blanks generalizing spot with
  | nil => exact within
  | cons point blanks ih =>
    have own := blank point List.mem_cons_self
    have next : spot.advance point ≠ .outside := fun leaves => by
      rcases Spot.advance_eq_outside leaves with ⟨rfl, _⟩ | ⟨_, rfl⟩
      · exact within rfl
      · cases own
    exact ⟨within, ih next fun other member => blank other (List.mem_cons_of_mem point member)⟩

theorem after_blanks_iff (t : Text) {blanks : Text} (blank : ∀ point ∈ blanks, isBlankPoint point = true) :
    Spot.outside.after (t ++ blanks) = .outside ↔ Spot.outside.after t = .outside := by
  rw [Spot.after_append]
  constructor
  · intro closed
    by_contra within
    exact (stays_blanks within blank).after_ne closed
  · intro closed
    rw [closed, after_plain fun point member => isBreak_of_blank (blank point member)]

theorem rdropWhile_blanks (t : Text) {blanks : Text} (blank : ∀ point ∈ blanks, isBlankPoint point = true) :
    (t ++ blanks).rdropWhile isBlankPoint = t.rdropWhile isBlankPoint := by
  induction blanks using List.reverseRecOn with
  | nil => rw [List.append_nil]
  | append_singleton blanks point ih =>
    rw [← List.append_assoc, List.rdropWhile_concat_pos _ _ _ (blank point (by simp)),
      ih fun other member => blank other (List.mem_append_left _ member)]

theorem trim_blanks (t : Text) {blanks : Text} (blank : ∀ point ∈ blanks, isBlankPoint point = true) :
    Text.trim (t ++ blanks) = Text.trim t := by
  rw [Text.trim, Text.trim, trimBy_eq_rdropWhile, trimBy_eq_rdropWhile, List.dropWhile_append]
  split
  · rename_i empty
    rw [List.isEmpty_iff.mp empty, List.dropWhile_eq_nil_iff.mpr blank]
  · exact rdropWhile_blanks _ blank

theorem bracketStep_blanks (inside : Text) {blanks : Text} (blank : ∀ point ∈ blanks, isBlankPoint point = true) :
    bracketStep (inside ++ blanks) = bracketStep inside := by
  unfold bracketStep
  rw [trim_blanks inside blank]

theorem scan_blanks_open {t : Text} (opened : Spot.outside.after t ≠ .outside) {blanks : Text}
    (blank : ∀ point ∈ blanks, isBlankPoint point = true) : scan (t ++ blanks) = scan t := by
  obtain closed | ⟨front, body, rfl, closed, stays⟩ := exists_open t
  · exact absurd closed opened
  · have longer : Spot.inside.Stays (body ++ blanks) :=
      Spot.stays_append.mpr ⟨stays, stays_blanks stays.after_ne blank⟩
    rw [List.append_assoc, scan_append closed (by simp [isBreak]), scan_append closed (by simp [isBreak]),
      List.cons_append, scan_bracket, scan_bracket, enclosed_of_stays longer, enclosed_of_stays stays,
      bracketStep_blanks body blank]

/-- Both fail alike, or there are other steps in the second place, of which the last one is a name. -/
def GoesOn (first second : Except Fault (List Step)) : Prop :=
  (∃ fault, first = .error fault ∧ second = .error fault) ∨
    ∃ steps longer name, first = .ok steps ∧ second = .ok longer ∧ longer ≠ steps ∧
      longer.getLast? = some (.member name)

theorem GoesOn.inTurn {first second : Except Fault (List Step)} (goes : GoesOn first second)
    (front : Except Fault (List Step)) : GoesOn (inTurn front first) (inTurn front second) := by
  cases front with
  | error fault => exact .inl ⟨fault, rfl, rfl⟩
  | ok steps =>
    rcases goes with ⟨fault, rfl, rfl⟩ | ⟨others, longer, name, rfl, rfl, different, last⟩
    · exact .inl ⟨fault, rfl, rfl⟩
    · refine .inr ⟨_, _, name, inTurn_ok _ _, inTurn_ok _ _, fun same => different (List.append_cancel_left same), ?_⟩
      rw [List.getLast?_append, last, Option.some_or]

/-- What is put behind a path that closes its brackets is read, as a name or as a part of one. -/
theorem scan_goesOn {t more : Text} (closed : Spot.outside.after t = .outside) (filled : more ≠ [])
    (plain : ∀ point ∈ more, isBreak point = false) : GoesOn (scan t) (scan (t ++ more)) := by
  have shut := shut_of_after closed
  clear closed
  induction shut with
  | nil =>
    rw [scan_nil, List.nil_append, scan_plain filled plain]
    exact .inr ⟨[], [.member more], more, rfl, rfl, by simp, rfl⟩
  | @bracket body rest stays ends behind ih =>
    rw [List.cons_append, List.append_assoc, List.cons_append, scan_enclosed stays ends, scan_enclosed stays ends]
    exact ih.inTurn _
  | dot behind ih =>
    rw [List.cons_append, scan_dot, scan_dot]
    exact ih
  | @name point rest own behind ih =>
    -- A name that is last takes up what is put behind it; any other one ends where it has ended before.
    by_cases last : ∀ other ∈ rest, isBreak other = false
    · have whole : ∀ other ∈ point :: (rest ++ more), isBreak other = false := by
        simpa [or_imp, forall_and, own] using ⟨last, plain⟩
      rw [List.cons_append, scan_plain (by simp) whole, scan_plain (by simp) (List.forall_mem_cons.mpr ⟨own, last⟩)]
      exact .inr ⟨_, _, point :: (rest ++ more), rfl, rfl, by simp [filled], rfl⟩
    · obtain ⟨taken, left⟩ := name_ended last more
      rw [List.cons_append, scan_name own, scan_name own, taken, left]
      exact ih.inTurn _

/-! ## Ends of segments -/

theorem isBlankPoint_of_part {point : CodePoint} (part : isPart point = true) : isBlankPoint point = false := by
  cases point with
  | half unit => rfl
  | scalar c => exact isBlank_of_part part

theorem isPart_of_start {point : CodePoint} (start : isStart point = true) : isPart point = true := by
  cases point with
  | half unit => cases start
  | scalar c =>
    simp only [isStart, CodePoint.satisfies, Identifier.isStart, Bool.or_eq_true] at start
    simp only [isPart, CodePoint.satisfies, Identifier.isPart, Identifier.isAsciiWordChar, Bool.or_eq_true]
    tauto

theorem getLast?_closesAll {filled : Bool} {t : Text} (closes : closesAll filled t = true) :
    t.getLast? = some (.scalar ']') ∨ t.getLast? = some (.scalar '\n') := by
  fun_induction closesAll filled t with
  | case1 => cases closes
  | case2 filled rest ih =>
    rw [Bool.and_eq_true, Bool.or_eq_true, isEnd_iff] at closes
    obtain ⟨_, (rfl | rfl) | inner⟩ := closes
    · exact .inl rfl
    · exact .inr rfl
    · split at inner
      · rcases ih inner with bracket | newline
        · exact .inl (by simp [List.getLast?_cons, bracket])
        · exact .inr (by simp [List.getLast?_cons, newline])
      · cases inner
  | case3 filled point rest other ih =>
    rcases ih closes with bracket | newline
    · exact .inl (by simp [List.getLast?_cons, bracket])
    · exact .inr (by simp [List.getLast?_cons, newline])

theorem isSimple_cons {first : CodePoint} (start : isStart first = true) (rest : Text) :
    isSimple (first :: rest) = isEnd (rest.dropWhile isPart) := by
  simp only [isSimple, afterIdentifier, start, if_true]

theorem getLast?_plain {segment : Text} (plain : (isSimple segment || isIndexed segment) = true) :
    ∃ last, segment.getLast? = some last ∧ (isBlankPoint last = true ↔ last = .scalar '\n') := by
  cases segment with
  | nil => cases plain
  | cons first rest =>
    cases start : isStart first with
    | false => simp [isSimple, isIndexed, afterIdentifier, start] at plain
    | true =>
      have whole : first :: rest = (first :: rest.takeWhile isPart) ++ rest.dropWhile isPart := by
        rw [List.cons_append, List.takeWhile_append_dropWhile]
      rw [Bool.or_eq_true, isSimple_cons start, isEnd_iff, isIndexed_cons start] at plain
      rw [whole]
      rcases plain with (none | newline) | ⟨brackets, shape, closes⟩
      · have parts : ∀ point ∈ first :: rest.takeWhile isPart, isPart point = true :=
          List.forall_mem_cons.mpr ⟨isPart_of_start start, fun point member => List.mem_takeWhile_imp member⟩
        rw [none, List.append_nil]
        refine ⟨_, List.getLast?_eq_some_getLast (List.cons_ne_nil _ _), ?_⟩
        have part := parts _ (List.getLast_mem (List.cons_ne_nil _ _))
        rw [isBlankPoint_of_part part]
        refine ⟨fun blank => absurd blank Bool.false_ne_true, fun same => ?_⟩
        rw [same] at part
        exact absurd part (by decide)
      · rw [newline, List.getLast?_concat]
        exact ⟨_, rfl, by decide⟩
      · rw [shape, List.getLast?_append_of_ne_nil _ (List.cons_ne_nil _ _), List.getLast?_cons]
        rcases getLast?_closesAll closes with bracket | newline
        · exact ⟨.scalar ']', by rw [bracket]; rfl, by decide⟩
        · exact ⟨.scalar '\n', by rw [newline]; rfl, by decide⟩

/-! ## Normal forms -/

/-- Only blanks at the end of a normal form are lost when it is normalized. -/
theorem normalize_normalize (path : Text) :
    normalize (normalize path) = (normalize path).rdropWhile isBlankPoint := by
  rcases normalize_shape path with empty | ⟨rest, shape⟩
  · rw [empty]
    rfl
  · rw [shape, normalize_dollar, rdropWhile_dollar]

/-- The last segment of a path that a user writes is plain, with a line break let through at its end. -/
def EndsInBreak (path : Text) : Prop :=
  ¬ Rooted path ∧ ∃ segment, (segments (Text.trim path)).getLast? = some segment ∧
    (isSimple segment || isIndexed segment) = true ∧ segment.getLast? = some (.scalar '\n')

theorem getLast?_trim {t : Text} {last : CodePoint} (ends : (Text.trim t).getLast? = some last) :
    isBlankPoint last = false :=
  getLast?_rdropWhile ends

theorem getLast?_normalize_rooted {path : Text} (rooted : Rooted path) {last : CodePoint}
    (ends : (normalize path).getLast? = some last) : isBlankPoint last = false := by
  rw [normalize_of_rooted rooted] at ends
  rcases rooted with dollar | bracket
  · obtain ⟨rest, shape⟩ := List.head?_eq_some_iff.mp dollar
    rw [shape] at ends
    exact getLast?_trim (shape ▸ ends)
  · obtain ⟨rest, shape⟩ := List.head?_eq_some_iff.mp bracket
    rw [shape, unrooted_of_ne (by simp), List.getLast?_cons_cons] at ends
    exact getLast?_trim (shape ▸ ends)

theorem blank_encode_iff (segment : Text) :
    ∃ last, (encode segment).getLast? = some last ∧ (isBlankPoint last = true ↔
      (isSimple segment || isIndexed segment) = true ∧ segment.getLast? = some (.scalar '\n')) := by
  unfold encode
  split
  · rename_i plain
    obtain ⟨last, ends, blank⟩ := getLast?_plain plain
    refine ⟨last, by rw [List.getLast?_cons, ends]; rfl, ?_⟩
    rw [blank, ends, Option.some.injEq]
    exact ⟨fun newline => ⟨plain, newline⟩, And.right⟩
  · rename_i quoted
    refine ⟨.scalar ']', ?_, by simp [quoted]; rfl⟩
    rw [← List.cons_append, ← List.cons_append, List.getLast?_append_of_ne_nil _ (by simp)]
    rfl

theorem blank_normalize_iff (path : Text) :
    (∃ last, (normalize path).getLast? = some last ∧ isBlankPoint last = true) ↔ EndsInBreak path := by
  by_cases rooted : Rooted path
  · refine iff_of_false ?_ fun ends => ends.1 rooted
    rintro ⟨last, ends, blank⟩
    rw [getLast?_normalize_rooted rooted ends] at blank
    cases blank
  · obtain ⟨noDollar, noBracket⟩ := not_or.mp rooted
    have behind := normalize_eq noDollar noBracket
    rcases List.eq_nil_or_concat (segments (Text.trim path)) with none | ⟨before, segment, parts⟩
    · refine iff_of_false ?_ fun ⟨_, _, listed, _⟩ => by simp [none] at listed
      rintro ⟨last, ends, blank⟩
      rcases normalize_shape path with empty | ⟨rest, shape⟩
      · simp [empty] at ends
      · rw [none, shape] at behind
        rw [shape, show rest = [] from behind] at ends
        cases ends
        cases blank
    · -- The encoding of the last segment is not empty, so it decides how the path ends.
      obtain ⟨last, ends, blank⟩ := blank_encode_iff segment
      have some : encode segment ≠ [] := fun empty => by simp [empty] at ends
      have own : (normalize path).getLast? = Option.some last := by
        have front := List.getLast?_drop (i := 1) (l := normalize path)
        rw [behind, parts, List.concat_eq_append, List.flatMap_append, List.flatMap_singleton,
          List.getLast?_append_of_ne_nil _ some, ends] at front
        split at front
        · cases front
        · exact front.symm
      simp only [own, Option.some.injEq, exists_eq_left', blank, EndsInBreak, rooted, not_false_eq_true, true_and, parts,
        List.concat_eq_append, List.getLast?_concat]

theorem normalize_idempotent (path : Text) : normalize (normalize path) = normalize path ↔ ¬ EndsInBreak path := by
  rw [normalize_normalize, ← blank_normalize_iff, List.rdropWhile_eq_self_iff]
  constructor
  · rintro filled ⟨last, ends, blank⟩
    have some : normalize path ≠ [] := fun empty => by simp [empty] at ends
    rw [List.getLast?_eq_some_getLast some, Option.some.injEq] at ends
    exact filled some (ends ▸ blank)
  · intro filled some blank
    exact filled ⟨_, List.getLast?_eq_some_getLast some, blank⟩

/-! ## Paths that are normalized twice -/

theorem exists_blanks (path : Text) : ∃ t blanks, steps (normalize path) = scan t ∧ steps path = scan (t ++ blanks) ∧
    (∀ point ∈ blanks, isBlankPoint point = true) ∧ (blanks = [] ↔ ¬ EndsInBreak path) ∧
    (Spot.outside.after t = .outside ↔ Spot.outside.after (normalize path) = .outside) := by
  rw [← normalize_idempotent, steps, steps, normalize_normalize]
  rcases normalize_shape path with empty | ⟨rest, shape⟩
  · refine ⟨[], [], ?_, ?_, by simp, ?_, ?_⟩ <;> simp [empty]
  · have whole := List.rdropWhile_append_rtakeWhile (p := isBlankPoint) (l := rest)
    have blank : ∀ point ∈ rest.rtakeWhile isBlankPoint, isBlankPoint point = true := fun _ => List.mem_rtakeWhile_imp
    rw [shape, rdropWhile_dollar]
    refine ⟨rest.rdropWhile isBlankPoint, rest.rtakeWhile isBlankPoint, rfl, by rw [whole]; rfl, blank, ?_, ?_⟩
    · rw [List.cons.injEq, and_iff_right rfl]
      constructor
      · intro none
        rwa [none, List.append_nil] at whole
      · intro same
        rw [same] at whole
        exact List.append_right_eq_self.mp whole
    · have opened := after_blanks_iff (rest.rdropWhile isBlankPoint) blank
      rw [whole] at opened
      exact opened.symm

theorem steps_normalize {path : Text}
    (kept : ¬ EndsInBreak path ∨ Spot.outside.after (normalize path) ≠ .outside) :
    steps (normalize path) = steps path := by
  obtain ⟨t, blanks, twice, once, blank, none, closed⟩ := exists_blanks path
  rw [twice, once]
  rcases kept with filled | opened
  · rw [none.mpr filled, List.append_nil]
  · rw [scan_blanks_open (closed.not.mpr opened) blank]

theorem steps_goesOn {path : Text} (ends : EndsInBreak path) (closed : Spot.outside.after (normalize path) = .outside) :
    GoesOn (steps (normalize path)) (steps path) := by
  obtain ⟨t, blanks, twice, once, blank, none, outside⟩ := exists_blanks path
  rw [twice, once]
  exact scan_goesOn (outside.mpr closed) (none.not.mpr (not_not.mpr ends))
    fun point member => isBreak_of_blank (blank point member)

theorem matched_eq (path : Text) (document : Value) : Row.matched document path =
    ((steps (normalize path)).map (reached · document)).mapError fun _ => .unreadable := by
  rw [Row.matched, select_eq]

/--
Normalizing twice is normalizing once, unless a line break is let through at the end of a path. Then a read,
which normalizes twice, still finds what the path reaches in every document just if the line break stands in a
bracket that is not closed, or the path cannot be read at all.
-/
theorem normalize_idempotent_iff (path : Text) :
    (normalize (normalize path) = normalize path ↔ ¬ EndsInBreak path) ∧
    ((∀ document, Row.matched document path = (select path document).mapError fun _ => .unreadable) ↔
      ¬ EndsInBreak path ∨ Spot.outside.after (normalize path) ≠ .outside ∨ ∃ fault, steps path = .error fault) := by
  refine ⟨normalize_idempotent path, ?_⟩
  simp only [matched_eq, select_eq]
  constructor
  · intro agrees
    by_contra apart
    simp only [not_or, not_not, not_exists] at apart
    obtain ⟨ends, closed, read⟩ := apart
    rcases steps_goesOn ends closed with ⟨fault, _, failed⟩ | ⟨found, longer, name, twice, once, different, _⟩
    · exact read fault failed
    · -- Some document tells the two lists of steps apart, for no two lists reach the same in all of them.
      refine different (reached_injective (funext fun document => ?_))
      have same := agrees document
      rw [twice, once] at same
      exact (Except.ok.inj same).symm
  · rintro kept document
    by_cases broken : EndsInBreak path ∧ Spot.outside.after (normalize path) = .outside
    · obtain ⟨ends, closed⟩ := broken
      obtain ⟨fault, failed⟩ := (kept.resolve_left (not_not.mpr ends)).resolve_left (not_not.mpr closed)
      rcases steps_goesOn ends closed with ⟨other, twice, once⟩ | ⟨found, longer, name, _, once, _⟩
      · rw [twice, once]
      · cases once.symm.trans failed
    · rw [steps_normalize (not_and_or.mp broken)]

/-- A line break is let through behind a name, and lost when the normal form is normalized. -/
theorem normalize_loses_break :
    normalize (Text.ofString "name\n.") = Text.ofString "$.name\n" ∧
      normalize (normalize (Text.ofString "name\n.")) = Text.ofString "$.name" ∧
      select (Text.ofString "name\n.") (.record [(Text.ofString "name\n", .int 1)]) = .ok [.int 1] ∧
      Row.matched (.record [(Text.ofString "name\n", .int 1)]) (Text.ofString "name\n.") = .ok [] ∧
      ¬ ∀ path, normalize (normalize path) = normalize path := by
  have once : normalize (Text.ofString "name\n.") = Text.ofString "$.name\n" := by decide
  have twice : normalize (normalize (Text.ofString "name\n.")) = Text.ofString "$.name" := by decide
  have own : steps (Text.ofString "name\n.") = .ok [.member (Text.ofString "name\n")] := by decide +kernel
  have again : steps (normalize (Text.ofString "name\n.")) = .ok [.member (Text.ofString "name")] := by decide +kernel
  refine ⟨once, twice, ?_, ?_, fun always => ?_⟩
  · rw [select_eq, own]
    rfl
  · rw [matched_eq, again]
    rfl
  · have same := always (Text.ofString "name\n.")
    rw [twice, once] at same
    exact absurd same (by decide)

theorem matched_of_steps {path : Text} {found : List Step} (read : steps path = .ok found)
    (last : ∀ name, found.getLast? ≠ some (.member name)) (document : Value) :
    Row.matched document path = .ok (reached found document) := by
  have same : steps (normalize path) = steps path := by
    by_cases broken : EndsInBreak path ∧ Spot.outside.after (normalize path) = .outside
    · rcases steps_goesOn broken.1 broken.2 with ⟨_, _, failed⟩ | ⟨_, longer, name, _, once, _, ends⟩
      · cases read.symm.trans failed
      · cases read.symm.trans once
        exact absurd ends (last name)
    · exact steps_normalize (not_and_or.mp broken)
  rw [matched_eq, same, read]
  rfl

end ProfileConnector.Path
