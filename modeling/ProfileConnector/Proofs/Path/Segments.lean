import ProfileConnector.Proofs.Path.Written

/-!
Segments of a written path. What follows a text that does not end at a cut goes on with its last segment;
a path whose segments are indexed or without brackets and dots is read as it is written.
-/

namespace ProfileConnector.Path

open Outcome Text

namespace Cursor

def after (cursor : Cursor) (t : Text) : Cursor := t.foldl advance cursor

@[simp] theorem after_nil (cursor : Cursor) : cursor.after [] = cursor := rfl

@[simp] theorem after_cons (cursor : Cursor) (point : CodePoint) (t : Text) :
    cursor.after (point :: t) = (cursor.advance point).after t := rfl

theorem cuts_eq_false (cursor : Cursor) {point : CodePoint} (noDot : point ≠ .scalar '.') :
    cursor.cuts point = false := by
  simp [cuts, noDot]

theorem eq_of_cuts {cursor : Cursor} {point : CodePoint} (cuts : cursor.cuts point = true) :
    cursor = {} ∧ point = .scalar '.' := by
  obtain ⟨depth, inSingle, inDouble, escaped⟩ := cursor
  simpa [Cursor.cuts, quoted, and_assoc, and_comm, and_left_comm] using cuts

end Cursor

/-! ## Cuts -/

def joined (parts : Text × List Text) : List Text := if parts.1.isEmpty then parts.2 else parts.1 :: parts.2

theorem segments_eq (t : Text) : segments t = joined (cut {} t) := rfl

theorem joined_of_ne_nil {front : Text} (some : front ≠ []) (others : List Text) :
    joined (front, others) = front :: others := by
  simp [joined, some]

theorem cut_cons_of_cuts {cursor : Cursor} {point : CodePoint} (cuts : cursor.cuts point = true) (rest : Text) :
    cut cursor (point :: rest) = ([], joined (cut (cursor.advance point) rest)) := by
  rw [cut]
  simp [cuts, joined]

theorem cut_cons_of_keeps {cursor : Cursor} {point : CodePoint} (keeps : cursor.cuts point = false) (rest : Text) :
    cut cursor (point :: rest) =
      (point :: (cut (cursor.advance point) rest).1, (cut (cursor.advance point) rest).2) := by
  rw [cut]
  simp [keeps]

theorem cut_append {block : Text} (noDot : ∀ point ∈ block, point ≠ .scalar '.') (cursor : Cursor) (rest : Text) :
    cut cursor (block ++ rest) = (block ++ (cut (cursor.after block) rest).1, (cut (cursor.after block) rest).2) := by
  induction block generalizing cursor with
  | nil => rfl
  | cons point block ih =>
    rw [List.cons_append, cut_cons_of_keeps (cursor.cuts_eq_false (noDot point List.mem_cons_self)),
      ih fun other member => noDot other (List.mem_cons_of_mem point member)]
    rfl

theorem cut_block {block : Text} (some : block ≠ []) (noDot : ∀ point ∈ block, point ≠ .scalar '.') (cursor : Cursor)
    (t : Text) : (∀ rest, cut cursor (t ++ (block ++ rest)) = (t ++ (block ++ (cut (cursor.after (t ++ block)) rest).1),
      (cut (cursor.after (t ++ block)) rest).2)) ∨
    ∃ front before first, ∀ rest, cut cursor (t ++ (block ++ rest)) =
      (front, before ++ (first ++ (block ++ (cut (cursor.after (t ++ block)) rest).1)) ::
        (cut (cursor.after (t ++ block)) rest).2) := by
  -- The block has no dot, so it belongs to the segment that is open in front of it.
  induction t generalizing cursor with
  | nil => exact .inl fun rest => cut_append noDot cursor rest
  | cons point t ih =>
    cases cuts : cursor.cuts point with
    | true =>
      rcases ih (cursor.advance point) with whole | ⟨front, before, first, whole⟩
      · refine .inr ⟨[], [], t, fun rest => ?_⟩
        rw [List.cons_append, cut_cons_of_cuts cuts, whole, joined_of_ne_nil (by simp [some])]
        rfl
      · refine .inr ⟨[], joined (front, before), first, fun rest => ?_⟩
        rw [List.cons_append, cut_cons_of_cuts cuts, whole]
        cases front <;> rfl
    | false =>
      rcases ih (cursor.advance point) with whole | ⟨front, before, first, whole⟩
      · refine .inl fun rest => ?_
        rw [List.cons_append, cut_cons_of_keeps cuts, whole]
        rfl
      · refine .inr ⟨point :: front, before, first, fun rest => ?_⟩
        rw [List.cons_append, cut_cons_of_keeps cuts, whole]
        rfl

theorem segments_block {block : Text} (some : block ≠ []) (noDot : ∀ point ∈ block, point ≠ .scalar '.') (t : Text) :
    ∃ before first, ∀ rest, segments (t ++ (block ++ rest)) =
      before ++ (first ++ (block ++ (cut (Cursor.after {} (t ++ block)) rest).1)) ::
        (cut (Cursor.after {} (t ++ block)) rest).2 := by
  rcases cut_block some noDot {} t with whole | ⟨front, before, first, whole⟩
  · refine ⟨[], t, fun rest => ?_⟩
    rw [segments_eq, whole, joined_of_ne_nil (by simp [some])]
    rfl
  · refine ⟨joined (front, before), first, fun rest => ?_⟩
    rw [segments_eq, whole]
    cases front <;> rfl

theorem segments_dot (behind : Text) : segments (.scalar '.' :: behind) = segments behind := by
  rw [segments_eq, cut_cons_of_cuts rfl]
  rfl

theorem cut_split (cursor : Cursor) (t : Text) : ∃ rest, t = (cut cursor t).1 ++ rest ∧
    (∀ point ∈ rest.head?, point = .scalar '.') ∧ (cut cursor t).2 = segments rest := by
  induction t generalizing cursor with
  | nil => exact ⟨[], rfl, by simp, rfl⟩
  | cons point t ih =>
    cases cuts : cursor.cuts point with
    | true =>
      obtain ⟨rfl, rfl⟩ := Cursor.eq_of_cuts cuts
      rw [cut_cons_of_cuts cuts]
      exact ⟨_, rfl, by simp, (segments_dot t).symm⟩
    | false =>
      obtain ⟨rest, whole, dot, others⟩ := ih (cursor.advance point)
      rw [cut_cons_of_keeps cuts]
      exact ⟨rest, congrArg (point :: ·) whole, dot, others⟩

/-- What is proved of a text as it is cut: its first segment goes up to the end of the text or to a dot. -/
theorem segments_induction {motive : Text → Prop} (nil : motive [])
    (dot : ∀ behind, motive behind → motive (.scalar '.' :: behind))
    (segment : ∀ t rest, t = (cut {} t).1 ++ rest → (cut {} t).1 ≠ [] → (∀ point ∈ rest.head?, point = .scalar '.') →
      segments t = (cut {} t).1 :: segments rest → motive rest → motive t)
    (t : Text) : motive t := by
  obtain ⟨rest, whole, ends, others⟩ := cut_split {} t
  by_cases empty : (cut {} t).1 = []
  · rw [empty, List.nil_append] at whole
    match t with
    | [] => exact nil
    | point :: behind =>
      rw [← whole] at ends
      cases ends point rfl
      exact dot behind (segments_induction nil dot segment behind)
  · have shorter : rest.length < t.length := by
      have filled := List.length_pos_of_ne_nil empty
      have lengths := congrArg List.length whole
      rw [List.length_append] at lengths
      omega
    refine segment t rest whole empty ends ?_ (segments_induction nil dot segment rest)
    rw [← others]
    exact joined_of_ne_nil empty _
  termination_by t.length

/-! ## Indices -/

theorem isEnd_iff {t : Text} : isEnd t = true ↔ t = [] ∨ t = [.scalar '\n'] := by
  unfold isEnd
  split <;> simp_all

theorem getLast?_tail {point last : CodePoint} {rest : Text} (ends : (point :: rest).getLast? = some last)
    (apart : point ≠ last) : rest.getLast? = some last := by
  cases rest with
  | nil => simp_all
  | cons next rest => rwa [List.getLast?_cons_cons] at ends

theorem closesAll_of_append {front back : Text} (ends : front.getLast? = some (.scalar ']')) {filled : Bool}
    (closes : closesAll filled (front ++ back) = true) : closesAll filled front = true := by
  match front with
  | [] => cases ends
  | [point] =>
    cases ends
    rw [List.cons_append, closesAll.eq_def] at closes
    simp only [Bool.and_eq_true] at closes
    simp [closesAll, isEnd, closes.1]
  | point :: next :: more =>
    rw [List.getLast?_cons_cons] at ends
    by_cases closing : point = .scalar ']'
    · subst closing
      by_cases opens : next = .scalar '['
      · subst opens
        rw [List.cons_append, List.cons_append, closesAll.eq_2, Bool.and_eq_true] at closes
        have inner : closesAll false (more ++ back) = true := by simpa [isEnd] using closes.2
        rw [closesAll.eq_2, closesAll_of_append (getLast?_tail ends (by simp)) inner]
        simp [closes.1]
      · rw [List.cons_append, List.cons_append, closesAll.eq_3 _ _ (by simp [opens]), Bool.and_eq_true,
          Bool.or_false] at closes
        obtain ⟨rfl, none⟩ : next = .scalar '\n' ∧ more ++ back = [] := by simpa [isEnd_iff] using closes.2
        simp [List.append_eq_nil_iff.mp none] at ends
    · rw [List.cons_append, closesAll.eq_4 _ _ _ closing] at closes
      rw [closesAll.eq_4 _ _ _ closing]
      exact closesAll_of_append ends closes
  termination_by front.length

theorem getLast?_dropWhile {p : CodePoint → Bool} {t : Text} {last : CodePoint} (ends : t.getLast? = some last)
    (stays : p last = false) : (t.dropWhile p).getLast? = some last := by
  have some : t.dropWhile p ≠ [] := fun none => by
    simp [List.dropWhile_eq_nil_iff.mp none last (List.mem_of_getLast? ends)] at stays
  rw [← List.takeWhile_append_dropWhile (p := p) (l := t), List.getLast?_append_of_ne_nil _ some] at ends
  exact ends

theorem isIndexed_cons {first : CodePoint} {rest : Text} (start : isStart first = true) :
    isIndexed (first :: rest) = true ↔
      ∃ brackets, rest.dropWhile isPart = .scalar '[' :: brackets ∧ closesAll false brackets = true := by
  simp only [isIndexed, afterIdentifier, start, if_true]
  cases rest.dropWhile isPart with
  | nil => simp
  | cons point brackets => by_cases opens : point = .scalar '[' <;> simp [opens]

theorem isIndexed_of_append {front back : Text} (ends : front.getLast? = some (.scalar ']'))
    (indexed : isIndexed (front ++ back) = true) : isIndexed front = true := by
  match front with
  | [] => cases ends
  | first :: rest =>
    cases start : isStart first with
    | false => simp [isIndexed, afterIdentifier, start] at indexed
    | true =>
      have different : first ≠ .scalar ']' := by rintro rfl; cases start
      have suffix := getLast?_dropWhile (p := isPart) (getLast?_tail ends different) rfl
      obtain ⟨brackets, whole, closes⟩ := (isIndexed_cons start).mp indexed
      cases shape : rest.dropWhile isPart with
      | nil => simp [shape] at suffix
      | cons point more =>
        have split : (rest ++ back).dropWhile isPart = point :: (more ++ back) := by
          rw [List.dropWhile_append, shape]
          rfl
        cases split.symm.trans whole
        rw [shape] at suffix
        exact (isIndexed_cons start).mpr ⟨more, shape, closesAll_of_append (getLast?_tail suffix (by simp)) closes⟩

/-! ## Segments that are read as written -/

/-- A segment that is indexed, or that has neither brackets nor dots. -/
def Plain (segment : Text) : Prop := isIndexed segment = true ∨ ∀ point ∈ segment, isBreak point = false

theorem Plain.after {segment : Text} (plain : Plain segment) (closed : Closed segment) :
    Spot.outside.after segment = .outside := by
  rcases plain with indexed | plain
  · exact closed indexed
  · exact after_plain plain

theorem Plain.scan {segment : Text} (plain : Plain segment) (some : segment ≠ []) :
    scan segment = segmentSteps segment := by
  unfold segmentSteps
  split
  · rfl
  · rcases plain with indexed | plain
    · contradiction
    · exact scan_plain some plain

theorem isBreak_of_dot {rest : Text} (dot : ∀ point ∈ rest.head?, point = .scalar '.') :
    ∀ point ∈ rest.head?, isBreak point := fun point first => by rw [dot point first]; rfl

theorem scan_segments (t : Text) (plain : ∀ segment ∈ segments t, Plain segment)
    (closed : ∀ segment ∈ segments t, Closed segment) : scan t = allSteps (segments t) := by
  induction t using segments_induction with
  | nil => exact scan_nil
  | dot behind ih =>
    rw [segments_dot] at plain closed ⊢
    rw [scan_dot, ih plain closed]
  | segment t rest whole some dot parts ih =>
    rw [parts] at plain closed ⊢
    have own := plain _ List.mem_cons_self
    have later := ih (fun segment member => plain segment (List.mem_cons_of_mem _ member))
      fun segment member => closed segment (List.mem_cons_of_mem _ member)
    rw [allSteps, ← own.scan some, ← later,
      ← scan_append (own.after (closed _ List.mem_cons_self)) (isBreak_of_dot dot)]
    exact congrArg scan whole

/-! ## Names -/

def upTo (mark : CodePoint) (t : Text) : Text := t.takeWhile (· != mark)

theorem upTo_cons {mark point : CodePoint} (apart : point ≠ mark) (t : Text) :
    upTo mark (point :: t) = point :: upTo mark t := by simp [upTo, apart]

theorem upTo_append {mark : CodePoint} {t : Text} (marked : mark ∈ t) (rest : Text) :
    upTo mark (t ++ rest) = upTo mark t := by
  induction t with
  | nil => cases marked
  | cons point t ih =>
    by_cases apart : point = mark
    · simp [upTo, apart]
    · rw [List.cons_append, upTo_cons apart, upTo_cons apart, ih (List.mem_of_ne_of_mem (Ne.symm apart) marked)]

section

variable {mark : CodePoint}

theorem length_upTo_append (mark : CodePoint) (front back : Text) :
    (upTo mark front).length ≤ (upTo mark (front ++ back)).length := by
  by_cases marked : mark ∈ front
  · rw [upTo_append marked]
  · have all : upTo mark front = front := List.takeWhile_eq_self_iff.mpr fun point member => by
      simpa using ne_of_mem_of_not_mem member marked
    rw [upTo, upTo, List.takeWhile_append, ← upTo, ← upTo, all, if_pos rfl, List.length_append]
    omega

theorem length_upTo_dropWhile {p : CodePoint → Bool} (stays : p mark = false) (t : Text) :
    (upTo mark (t.dropWhile p)).length ≤ (upTo mark t).length := by
  induction t with
  | nil => exact Nat.le_refl _
  | cons point t ih =>
    cases drops : p point with
    | true =>
      have apart : point ≠ mark := by rintro rfl; simp [stays] at drops
      rw [List.dropWhile_cons_of_pos drops, upTo_cons apart]
      exact Nat.le_succ_of_le ih
    | false => rw [List.dropWhile_cons_of_neg (by simp [drops])]

theorem length_upTo_trim (stays : isBlankPoint mark = false) (t : Text) :
    (upTo mark (Text.trim t)).length ≤ (upTo mark t).length := by
  obtain ⟨back, whole⟩ := List.rdropWhile_prefix isBlankPoint (t.dropWhile isBlankPoint)
  have shorter := length_upTo_append mark ((t.dropWhile isBlankPoint).rdropWhile isBlankPoint) back
  rw [whole] at shorter
  exact shorter.trans (length_upTo_dropWhile stays t)

theorem length_unescapeQuotes (mark : CodePoint) (noBackslash : mark ≠ .scalar '\\') (noQuote : mark ≠ .scalar '\'')
    (t : Text) :
    (upTo mark (unescapeQuotes t)).length ≤ (upTo mark t).length := by
  fun_induction unescapeQuotes t with
  | case1 rest ih =>
    rw [upTo_cons noQuote.symm, upTo_cons noBackslash.symm, upTo_cons noQuote.symm]
    exact Nat.succ_le_succ (Nat.le_succ_of_le ih)
  | case2 point rest apart ih =>
    by_cases marked : point = mark
    · simp [upTo, marked]
    · rw [upTo_cons marked, upTo_cons marked]
      exact Nat.succ_le_succ ih
  | case3 => exact Nat.le_refl _

theorem length_unescapeBackslashes (mark : CodePoint) (noBackslash : mark ≠ .scalar '\\') (t : Text) :
    (upTo mark (unescapeBackslashes t)).length ≤ (upTo mark t).length := by
  fun_induction unescapeBackslashes t with
  | case1 rest ih =>
    rw [upTo_cons noBackslash.symm, upTo_cons noBackslash.symm, upTo_cons noBackslash.symm]
    exact Nat.succ_le_succ (Nat.le_succ_of_le ih)
  | case2 point rest apart ih =>
    by_cases marked : point = mark
    · simp [upTo, marked]
    · rw [upTo_cons marked, upTo_cons marked]
      exact Nat.succ_le_succ ih
  | case3 => exact Nat.le_refl _

end

theorem unquoted?_eq_some {body name : Text} (found : unquoted? body = some name) :
    ∃ mark : Mark, body = mark.point :: (name ++ [mark.point]) := by
  unfold unquoted? at found
  split at found
  · rename_i rest
    split at found
    · rename_i ends
      cases found
      exact ⟨.single, congrArg (_ :: ·) (List.dropLast_append_getLast? _ ends).symm⟩
    · cases found
  · rename_i rest
    split at found
    · rename_i ends
      cases found
      exact ⟨.double, congrArg (_ :: ·) (List.dropLast_append_getLast? _ ends).symm⟩
    · cases found
  · cases found

def spelledName (body : Text) : Text :=
  match unquoted? body with
  | some name => unescapeBackslashes (unescapeQuotes name)
  | none => body

theorem bracketStep_eq_member {inside name : Text} (found : bracketStep inside = .ok (.member name)) :
    name = spelledName (Text.trim inside) := by
  unfold bracketStep at found
  simp only at found
  split at found
  · cases found
  · unfold spelledName
    split at found
    · rename_i quoted
      simpa [quoted] using found.symm
    · rename_i plain
      split at found
      · split at found <;> cases found
      · simpa [plain] using found.symm

theorem length_spelledName (body : Text) :
    (upTo (.scalar ']') (spelledName body)).length ≤ (upTo (.scalar ']') body).length := by
  unfold spelledName
  split
  · rename_i name quoted
    obtain ⟨mark, rfl⟩ := unquoted?_eq_some quoted
    have noMark : mark.point ≠ .scalar ']' := by cases mark <;> decide
    have inner := length_upTo_append (.scalar ']') name [mark.point]
    have escapes := (length_unescapeBackslashes (.scalar ']') (by decide) _).trans
      (length_unescapeQuotes (.scalar ']') (by decide) (by decide) name)
    rw [upTo_cons noMark]
    exact escapes.trans (Nat.le_succ_of_le inner)
  · exact Nat.le_refl _

/-! ## Segments that are read as others -/

theorem cut_opened (cursor : Cursor) (opened : 0 < cursor.depth) (t : Text) :
    (cut cursor t).1 = t ∨ .scalar ']' ∈ (cut cursor t).1 := by
  induction t generalizing cursor with
  | nil => exact .inl rfl
  | cons point t ih =>
    have keeps : cursor.cuts point = false := by simp [Cursor.cuts, Nat.ne_of_gt opened]
    rw [cut_cons_of_keeps keeps]
    by_cases closing : point = .scalar ']'
    · exact .inr (by simp [closing])
    · have deeper : 0 < (cursor.advance point).depth := by
        unfold Cursor.advance
        split
        · exact opened
        · split <;> grind
      rcases ih _ deeper with whole | closes
      · exact .inl (by rw [whole])
      · exact .inr (List.mem_cons_of_mem _ closes)

theorem head_scan {point : CodePoint} (plain : isBreak point = false) {rest : Text} {found : List Step}
    (read : scan (point :: rest) = .ok found) :
    ∃ name, found.head? = some (.member name) ∧ ∀ other ∈ name, isBreak other = false := by
  rw [scan_name plain] at read
  obtain ⟨_, others, first, _, rfl⟩ := inTurn_eq_ok.mp read
  cases first
  refine ⟨_, rfl, List.forall_mem_cons.mpr ⟨plain, fun other member => ?_⟩⟩
  simpa using List.mem_takeWhile_imp member

theorem scan_head_ne {t : Text} (some : (cut {} t).1 ≠ []) (breaks : ∃ point ∈ (cut {} t).1, isBreak point = true)
    {found : List Step} (read : scan t = .ok found) : found.head? ≠ Option.some (.member (cut {} t).1) := by
  intro same
  match t with
  | [] => exact some rfl
  | point :: rest =>
    cases cuts : Cursor.cuts {} point with
    | true => exact some (by rw [cut_cons_of_cuts cuts])
    | false =>
      rw [cut_cons_of_keeps cuts] at breaks same
      have noDot : point ≠ .scalar '.' := by rintro rfl; cases cuts
      by_cases opens : point = .scalar '['
      · subst opens
        rw [scan_bracket] at read
        obtain ⟨_, others, single, _, rfl⟩ := inTurn_eq_ok.mp read
        obtain ⟨step, spelled, rfl⟩ := map_eq_ok.mp single
        simp only [List.singleton_append, List.head?_cons, Option.some.injEq] at same
        subst same
        have name := bracketStep_eq_member spelled
        -- Up to a closing bracket the name is no longer than what stands in the bracket, but the segment is.
        have inner : (upTo (.scalar ']') (enclosed .inside rest).1).length ≤ (upTo (.scalar ']') rest).length := by
          obtain ⟨back, split⟩ := enclosed_prefix .inside rest
          have shorter := length_upTo_append (.scalar ']') (enclosed .inside rest).1 back
          rwa [split] at shorter
        have own : upTo (.scalar ']') (cut (Cursor.advance {} (.scalar '[')) rest).1 = upTo (.scalar ']') rest := by
          rcases cut_opened (Cursor.advance {} (.scalar '[')) (by decide) rest with all | closes
          · rw [all]
          · obtain ⟨back, split, _⟩ := cut_split (Cursor.advance {} (.scalar '[')) rest
            rw [← upTo_append closes back, ← split]
        have shorter := ((length_spelledName _).trans (length_upTo_trim (by decide) _)).trans inner
        rw [← name, upTo_cons (by decide), own, List.length_cons] at shorter
        omega
      · have plain : isBreak point = false := by simp [isBreak, noDot, opens]
        obtain ⟨name, first, unbroken⟩ := head_scan plain read
        cases first.symm.trans same
        obtain ⟨other, member, breaks⟩ := breaks
        simp [unbroken other member] at breaks

theorem isIndexed_eq_false {segment : Text} (other : ¬ Plain segment) : isIndexed segment = false :=
  Bool.eq_false_iff.mpr fun indexed => other (.inl indexed)

/-- Only a text with plain segments is read as its segments. -/
theorem plain_of_scan {t : Text} (closed : ∀ segment ∈ segments t, Closed segment) {found : List Step}
    (read : scan t = .ok found) (own : allSteps (segments t) = .ok found) : ∀ segment ∈ segments t, Plain segment := by
  induction t using segments_induction generalizing found with
  | nil => exact fun _ member => nomatch member
  | dot behind ih =>
    rw [segments_dot] at closed own ⊢
    rw [scan_dot] at read
    exact ih closed read own
  | segment t rest whole some dot parts ih =>
    rw [parts] at closed own ⊢
    obtain ⟨first, others, steps, later, rfl⟩ := inTurn_eq_ok.mp own
    -- A segment that is not plain would have to be scanned as one name, but there is a break in it.
    by_cases plain : Plain (cut {} t).1
    · rw [whole, scan_append (plain.after (closed _ List.mem_cons_self)) (isBreak_of_dot dot), plain.scan some,
        steps] at read
      obtain ⟨_, others', same, behind, equal⟩ := inTurn_eq_ok.mp read
      cases same
      cases List.append_cancel_left equal
      exact List.forall_mem_cons.mpr ⟨plain,
        ih (fun segment member => closed segment (List.mem_cons_of_mem _ member)) behind later⟩
    · rw [segmentSteps, isIndexed_eq_false plain] at steps
      cases steps
      have breaks : ∃ point ∈ (cut {} t).1, isBreak point = true := by
        by_contra none
        refine plain (.inr fun point member => ?_)
        by_contra some
        exact none ⟨point, member, by simpa using some⟩
      exact absurd rfl (scan_head_ne some breaks read)

end ProfileConnector.Path
