import ProfileConnector.Proofs.Path.Scan
import ProfileConnector.Proofs.Text.Trimmed

/-!
Written paths. A segment that is no plain name is written in quotes, with a backslash in front of every
quote and every backslash; reading the normal form gives the segment back, whatever it contains.
-/

namespace ProfileConnector.Path

open Outcome

/-! ## Escapes -/

def doublePoint : CodePoint → Text
  | .scalar '\\' => [.scalar '\\', .scalar '\\']
  | point => [point]

theorem escapePoint_eq (point : CodePoint) : escapePoint point =
    if point = .scalar '\'' then [.scalar '\\', .scalar '\''] else doublePoint point := by
  unfold escapePoint doublePoint
  split <;> simp_all

theorem doublePoint_eq (point : CodePoint) : doublePoint point =
    if point = .scalar '\\' then [.scalar '\\', .scalar '\\'] else [point] := by
  unfold doublePoint
  split <;> simp_all

theorem unescapeQuotes_cons {point : CodePoint} {rest : Text}
    (apart : point ≠ .scalar '\\' ∨ rest.head? ≠ some (.scalar '\'')) :
    unescapeQuotes (point :: rest) = point :: unescapeQuotes rest := by
  rw [unescapeQuotes]
  rintro others rfl rfl
  simp at apart

theorem unescapeBackslashes_cons {point : CodePoint} (apart : point ≠ .scalar '\\') (rest : Text) :
    unescapeBackslashes (point :: rest) = point :: unescapeBackslashes rest := by
  rw [unescapeBackslashes]
  rintro others rfl
  simp at apart

theorem head_escaped (t : Text) : (t.flatMap escapePoint).head? ≠ some (.scalar '\'') := by
  match t with
  | [] => simp
  | point :: rest =>
    rw [List.flatMap_cons, escapePoint_eq, doublePoint_eq]
    grind

theorem unescapeQuotes_escaped (t : Text) : unescapeQuotes (t.flatMap escapePoint) = t.flatMap doublePoint := by
  induction t with
  | nil => rfl
  | cons point rest ih =>
    have free := head_escaped rest
    rw [List.flatMap_cons, List.flatMap_cons, escapePoint_eq]
    split
    · rename_i quote
      simp [quote, unescapeQuotes, ih, doublePoint_eq]
    · rw [doublePoint_eq]
      split
      · rw [List.cons_append, List.cons_append, List.nil_append, unescapeQuotes_cons (.inr (by simp)),
          unescapeQuotes_cons (.inr free), ih]
        rfl
      · rename_i plain
        rw [List.cons_append, List.nil_append, unescapeQuotes_cons (.inl plain), ih]
        rfl

theorem unescapeBackslashes_doubled (t : Text) : unescapeBackslashes (t.flatMap doublePoint) = t := by
  induction t with
  | nil => rfl
  | cons point rest ih =>
    rw [List.flatMap_cons, doublePoint_eq]
    split
    · rename_i backslash
      simp [backslash, unescapeBackslashes, ih]
    · rename_i plain
      rw [List.cons_append, List.nil_append, unescapeBackslashes_cons plain, ih]

/-- Escapes are undone, however backslashes and quotes follow each other. -/
theorem unescape_escaped (t : Text) : unescapeBackslashes (unescapeQuotes (t.flatMap escapePoint)) = t := by
  rw [unescapeQuotes_escaped, unescapeBackslashes_doubled]

/-! ## Quoted segments -/

def inQuotes (segment : Text) : Text := .scalar '\'' :: (segment.flatMap escapePoint ++ [.scalar '\''])

theorem after_escaped (t : Text) : (Spot.quoted .single).Stays (t.flatMap escapePoint) ∧
    (Spot.quoted .single).after (t.flatMap escapePoint) = .quoted .single := by
  induction t with
  | nil => exact ⟨nofun, rfl⟩
  | cons point rest ih =>
    rw [List.flatMap_cons, Spot.stays_append, Spot.after_append, escapePoint_eq, doublePoint_eq]
    split
    · simpa [Spot.Stays, Spot.advance] using ih
    · split
      · simpa [Spot.Stays, Spot.advance] using ih
      · rename_i quote backslash
        simpa [Spot.Stays, Spot.advance, Mark.point, quote, backslash] using ih

theorem after_inQuotes (segment : Text) :
    Spot.inside.Stays (inQuotes segment) ∧ Spot.inside.after (inQuotes segment) = .inside := by
  obtain ⟨stays, ends⟩ := after_escaped segment
  constructor
  · exact ⟨nofun, Spot.stays_append.mpr ⟨stays, ends ▸ ⟨nofun, nofun⟩⟩⟩
  · change (Spot.quoted .single).after _ = _
    rw [Spot.after_append, ends]
    rfl

theorem bracketStep_inQuotes (segment : Text) : bracketStep (inQuotes segment) = .ok (.member segment) := by
  have ends : (inQuotes segment).getLast? = some (.scalar '\'') := by
    rw [inQuotes, ← List.cons_append, List.getLast?_concat]
  have trimmed : Text.trim (inQuotes segment) = inQuotes segment :=
    Text.trimBy_eq_self rfl fun point last => by
      rw [← inQuotes, ends, Option.mem_some_iff] at last
      subst last
      rfl
  have unquoted : unquoted? (inQuotes segment) = some (segment.flatMap escapePoint) := by
    simp [inQuotes, unquoted?]
  unfold bracketStep
  simp only [trimmed, unquoted, unescape_escaped]
  rw [if_neg (by simp [inQuotes])]

/-! ## Plain names -/

theorem isBreak_of_holds {p : CodePoint → Bool} {point : CodePoint} (noDot : p (.scalar '.') = false)
    (noBracket : p (.scalar '[') = false) (holds : p point = true) : isBreak point = false := by
  by_contra breaks
  rw [Bool.not_eq_false, isBreak, Bool.or_eq_true, beq_iff_eq, beq_iff_eq] at breaks
  rcases breaks with rfl | rfl
  · exact absurd holds (by simp [noDot])
  · exact absurd holds (by simp [noBracket])

theorem isSimple_plain {segment : Text} (simple : isSimple segment = true) :
    segment ≠ [] ∧ ∀ point ∈ segment, isBreak point = false := by
  match segment with
  | [] => cases simple
  | first :: rest =>
    cases start : isStart first with
    | false => simp [isSimple, afterIdentifier, start] at simple
    | true =>
      simp only [isSimple, afterIdentifier, start, if_true] at simple
      refine ⟨List.cons_ne_nil _ _, fun point member => ?_⟩
      rcases List.mem_cons.mp member with rfl | later
      · exact isBreak_of_holds rfl rfl start
      · rw [← List.takeWhile_append_dropWhile (p := isPart) (l := rest)] at later
        rcases List.mem_append.mp later with part | ending
        · exact isBreak_of_holds rfl rfl (List.mem_takeWhile_imp part)
        · unfold isEnd at simple
          split at simple
          · rename_i empty
            simp [empty] at ending
          · rename_i newline
            rw [newline, List.mem_singleton] at ending
            subst ending
            rfl
          · cases simple

theorem scan_plain {name : Text} (some : name ≠ []) (plain : ∀ point ∈ name, isBreak point = false) :
    scan name = .ok [.member name] := by
  obtain ⟨point, rest, rfl⟩ := List.exists_cons_of_ne_nil some
  have others : ∀ other ∈ rest, (!isBreak other) = true := fun other member => by
    simp [plain other (List.mem_cons_of_mem _ member)]
  rw [scan_name (plain point List.mem_cons_self), List.takeWhile_eq_self_iff.mpr others,
    List.dropWhile_eq_nil_iff.mpr others, scan_nil, inTurn_nil]

/-! ## Segments -/

/-- The steps of a segment of a path that a user writes: indices are read, all else is one name. -/
def segmentSteps (segment : Text) : Except Fault (List Step) :=
  if isIndexed segment then scan segment else .ok [.member segment]

theorem exists_head_encode (segment : Text) : ∃ point rest, encode segment = point :: rest ∧ isBreak point := by
  unfold encode
  split
  · exact ⟨_, _, rfl, rfl⟩
  · exact ⟨_, _, rfl, rfl⟩

theorem encode_of_named {segment : Text} (plain : isSimple segment = false) (named : isIndexed segment = false) :
    encode segment = .scalar '[' :: (inQuotes segment ++ [.scalar ']']) := by
  simp [encode, plain, named, inQuotes]

theorem scan_encode (segment : Text) : scan (encode segment) = segmentSteps segment := by
  unfold segmentSteps
  cases indexed : isIndexed segment with
  | true => simp only [encode, indexed, Bool.or_true, if_true, scan_dot]
  | false =>
    cases simple : isSimple segment with
    | true =>
      obtain ⟨some, plain⟩ := isSimple_plain simple
      simp [encode, simple, scan_dot, scan_plain some plain]
    | false =>
      obtain ⟨stays, ends⟩ := after_inQuotes segment
      rw [encode_of_named simple indexed, scan_bracket, enclosed_closed stays ends, bracketStep_inQuotes, scan_nil]
      rfl

/-- A segment that is indexed closes its brackets. -/
def Closed (segment : Text) : Prop := isIndexed segment = true → Spot.outside.after segment = .outside

theorem after_plain {name : Text} (plain : ∀ point ∈ name, isBreak point = false) :
    Spot.outside.after name = .outside := by
  have ended : name.dropWhile (!isBreak ·) = [] := List.dropWhile_eq_nil_iff.mpr fun point member => by
    simp [plain point member]
  rw [← after_name, ended, Spot.after_nil]

theorem after_encode {segment : Text} (closed : Closed segment) : Spot.outside.after (encode segment) = .outside := by
  cases indexed : isIndexed segment with
  | true => simpa [encode, indexed, Spot.advance] using closed indexed
  | false =>
    cases simple : isSimple segment with
    | true => simpa [encode, simple, Spot.advance] using after_plain (isSimple_plain simple).2
    | false =>
      rw [encode_of_named simple indexed, Spot.after_cons]
      change Spot.inside.after _ = _
      rw [Spot.after_append, (after_inQuotes segment).2]
      rfl

theorem head_encoded (parts : List Text) : ∀ point ∈ (parts.flatMap encode).head?, isBreak point := by
  cases parts with
  | nil => simp
  | cons segment parts =>
    obtain ⟨first, rest, shape, breaks⟩ := exists_head_encode segment
    simpa [shape] using breaks

def allSteps : List Text → Except Fault (List Step)
  | [] => .ok []
  | segment :: rest => inTurn (segmentSteps segment) (allSteps rest)

theorem allSteps_append (front back : List Text) :
    allSteps (front ++ back) = inTurn (allSteps front) (allSteps back) := by
  induction front with
  | nil => exact (nil_inTurn _).symm
  | cons segment front ih => rw [List.cons_append, allSteps, allSteps, ih, inTurn_assoc]

theorem scan_encoded {parts : List Text} (closed : ∀ segment ∈ parts, Closed segment) :
    scan (parts.flatMap encode) = allSteps parts := by
  induction parts with
  | nil => exact scan_nil
  | cons segment parts ih =>
    rw [List.flatMap_cons, scan_append (after_encode (closed segment List.mem_cons_self)) (head_encoded parts),
      scan_encode, ih fun other member => closed other (List.mem_cons_of_mem segment member), allSteps]

theorem allSteps_names {parts : List Text} (names : ∀ segment ∈ parts, isIndexed segment = false) :
    allSteps parts = .ok (parts.map .member) := by
  induction parts with
  | nil => rfl
  | cons segment parts ih =>
    rw [allSteps, ih fun other member => names other (List.mem_cons_of_mem segment member), segmentSteps,
      names segment List.mem_cons_self]
    rfl

/-! ## Paths -/

theorem normalize_eq {path : Text} (unrooted : (Text.trim path).head? ≠ some (.scalar '$'))
    (unbracketed : (Text.trim path).head? ≠ some (.scalar '[')) :
    (normalize path).drop 1 = (segments (Text.trim path)).flatMap encode := by
  unfold normalize
  split
  · rename_i blank
    rw [blank]
    rfl
  · rename_i rest rooted
    simp [rooted] at unrooted
  · rename_i rest bracketed
    simp [bracketed] at unbracketed
  · cases segments (Text.trim path) <;> rfl

/--
A path whose segments have no indices is read as its segments, in order and each as one name with all its
quotes, backslashes, brackets and blanks.
-/
theorem steps_of_names {path : Text} (unrooted : (Text.trim path).head? ≠ some (.scalar '$'))
    (unbracketed : (Text.trim path).head? ≠ some (.scalar '['))
    (names : ∀ segment ∈ segments (Text.trim path), isIndexed segment = false) :
    steps path = .ok ((segments (Text.trim path)).map .member) := by
  have closed : ∀ segment ∈ segments (Text.trim path), Closed segment := fun segment member indexed => by
    simp [names segment member] at indexed
  rw [steps, normalize_eq unrooted unbracketed, scan_encoded closed, allSteps_names names]

theorem steps_of_names_awkward :
    (Text.trim (Text.ofString " it's 'a.b'\\\\'.c[].\\'d e]. ")).head? ≠ some (.scalar '$') ∧
    (Text.trim (Text.ofString " it's 'a.b'\\\\'.c[].\\'d e]. ")).head? ≠ some (.scalar '[') ∧
    (∀ segment ∈ segments (Text.trim (Text.ofString " it's 'a.b'\\\\'.c[].\\'d e]. ")), isIndexed segment = false) ∧
    steps (Text.ofString " it's 'a.b'\\\\'.c[].\\'d e]. ") =
      .ok (["it's 'a", "b'\\\\'", "c[]", "\\'d e]"].map fun name => .member (Text.ofString name)) := by
  have unrooted : (Text.trim (Text.ofString " it's 'a.b'\\\\'.c[].\\'d e]. ")).head? ≠ some (.scalar '$') := by
    decide
  have unbracketed : (Text.trim (Text.ofString " it's 'a.b'\\\\'.c[].\\'d e]. ")).head? ≠ some (.scalar '[') := by
    decide
  have parts : segments (Text.trim (Text.ofString " it's 'a.b'\\\\'.c[].\\'d e]. ")) =
      ["it's 'a", "b'\\\\'", "c[]", "\\'d e]"].map Text.ofString := by decide
  have names : ∀ segment ∈ segments (Text.trim (Text.ofString " it's 'a.b'\\\\'.c[].\\'d e]. ")),
      isIndexed segment = false := by rw [parts]; decide
  refine ⟨unrooted, unbracketed, names, ?_⟩
  rw [steps_of_names unrooted unbracketed names, parts, List.map_map]
  rfl

end ProfileConnector.Path
