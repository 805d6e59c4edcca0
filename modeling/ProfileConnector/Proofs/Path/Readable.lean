import ProfileConnector.Proofs.Path.Cut

/-!
Which paths can be read. A bracket that holds nothing but digits behind dashes is taken for an index.
Where these spell no integer the path cannot be read, and nothing else keeps a path from being read.
-/

namespace ProfileConnector

/-! ## Spelled integers -/

namespace Numeral

open Text

theorem separatedDigits_cons {c : Char} {rest : List Char} (plain : '_' ∉ rest) (some : rest ≠ []) :
    separatedDigits (c :: rest) =
      (digitValue? c).bind fun value => (separatedDigits rest).map (value :: ·) := by
  obtain ⟨next, others, rfl⟩ := List.exists_cons_of_ne_nil some
  rw [separatedDigits.eq_4 _ _ (by simp) (by rintro more same; simp_all)]
  cases digitValue? c <;> cases separatedDigits (next :: others) <;> rfl

theorem separatedDigits_eq {cs : List Char} (some : cs ≠ []) (digits : ∀ c ∈ cs, isDigitForm c = true) :
    separatedDigits cs =
      if cs.all isDecimalDigit then Option.some (cs.map fun c => (digitValue? c).getD 0) else none := by
  induction cs with
  | nil => exact absurd rfl some
  | cons c rest ih =>
    by_cases last : rest = []
    · subst last
      rw [separatedDigits]
      cases value : digitValue? c <;> simp [isDecimalDigit, value]
    · -- An underscore between digits is skipped, but it is no digit itself.
      have plain : '_' ∉ rest := fun member => by
        have form := digits '_' (List.mem_cons_of_mem c member)
        revert form
        decide
      rw [separatedDigits_cons plain last, ih last fun d member => digits d (List.mem_cons_of_mem c member)]
      cases value : digitValue? c with
      | none => simp [isDecimalDigit, value]
      | some n => cases decimal : rest.all isDecimalDigit <;> simp [isDecimalDigit, value, decimal]

theorem separatedDigits_dash (rest : List Char) : separatedDigits ('-' :: rest) = none := by
  have noDigit : digitValue? '-' = none := by decide
  match rest with
  | [] => simp [separatedDigits, noDigit]
  | '_' :: others => simp [separatedDigits, noDigit]
  | c :: others =>
    by_cases underscore : c = '_'
    · subst underscore
      simp [separatedDigits, noDigit]
    · rw [separatedDigits.eq_4 _ _ (by simp) (by simp [underscore]), noDigit]
      rfl

theorem integer?_isSome (cs : List Char) (some : (sign cs).2 ≠ []) (digits : ∀ c ∈ (sign cs).2, isDigitForm c = true) :
    (integer? cs).isSome = true ↔
      (∀ c ∈ (sign cs).2, isDecimalDigit c = true) ∧ (sign cs).2.length ≤ digitLimit := by
  have whole : integer? cs = (separatedDigits (sign cs).2).bind fun values =>
      if digitLimit < values.length then none
      else Option.some (Binary64.signed (sign cs).1 (ofDigits values)) := rfl
  rw [whole, separatedDigits_eq some digits, ← List.all_eq_true]
  by_cases decimal : (sign cs).2.all isDecimalDigit = true
  · simp only [decimal, if_true, Option.bind_some, List.length_map, true_and]
    split
    · simp only [Option.isSome_none, Bool.false_eq_true, false_iff, Nat.not_le]
      assumption
    · simp only [Option.isSome_some, true_iff]
      exact Nat.le_of_not_lt ‹_›
  · simp [decimal]

theorem integer?_dashed {cs : List Char} (some : cs ≠ []) (digits : ∀ c ∈ cs, isDigitForm c = true) (dashes : Nat) :
    (integer? (List.replicate dashes '-' ++ cs)).isSome = true ↔
      dashes ≤ 1 ∧ (∀ c ∈ cs, isDecimalDigit c = true) ∧ cs.length ≤ digitLimit := by
  match dashes with
  | 0 =>
    have unsigned : sign cs = (false, cs) := by
      obtain ⟨c, rest, rfl⟩ := List.exists_cons_of_ne_nil some
      have first := digits c List.mem_cons_self
      have noDash : c ≠ '-' := by rintro rfl; exact absurd first (by decide)
      have noPlus : c ≠ '+' := by rintro rfl; exact absurd first (by decide)
      simp [sign, noDash, noPlus]
    have whole := integer?_isSome cs (by rwa [unsigned]) (by rwa [unsigned])
    rw [unsigned] at whole
    simpa using whole
  | 1 => simpa [sign] using integer?_isSome ('-' :: cs) some digits
  | n + 2 =>
    have twice : integer? (List.replicate (n + 2) '-' ++ cs) = none := by
      change (separatedDigits ('-' :: (List.replicate n '-' ++ cs))).bind _ = none
      rw [separatedDigits_dash]
      rfl
    simp [twice]

end Numeral

/-! ## Brackets -/

namespace Path

open Outcome Text

/-- The texts in brackets, without the blanks at their ends, in the order in which a reader meets them. -/
def bodies : Text → List Text
  | [] => []
  | point :: rest =>
    if point = .scalar '[' then Text.trim (bracket none rest).1 :: bodies (bracket none rest).2
    else bodies rest
  termination_by t => t.length
  decreasing_by
    · have := length_bracket_le none rest
      simp only [List.length_cons]
      omega
    · simp

/--
A bracketed text that is taken for an index and spells no integer: digits of any form behind any number of
dashes, with more than one dash, with a digit that is not decimal or with too many digits.
-/
def Misspelled (body : Text) : Prop :=
  ∃ dashes cs, body = Text.ofChars (List.replicate dashes '-' ++ cs) ∧ cs ≠ [] ∧
    (∀ c ∈ cs, isDigitForm c = true) ∧
    (1 < dashes ∨ (∃ c ∈ cs, isDecimalDigit c = false) ∨ Numeral.digitLimit < cs.length)

theorem ofChars_append (cs ds : List Char) : Text.ofChars (cs ++ ds) = Text.ofChars cs ++ Text.ofChars ds :=
  List.map_append

theorem exists_chars {p : Char → Bool} {t : Text} (all : ∀ point ∈ t, CodePoint.satisfies p point = true) :
    ∃ cs, t = Text.ofChars cs ∧ ∀ c ∈ cs, p c = true := by
  induction t with
  | nil => exact ⟨[], rfl, by simp⟩
  | cons point t ih =>
    obtain ⟨cs, rfl, each⟩ := ih fun other member => all other (List.mem_cons_of_mem point member)
    have own := all point List.mem_cons_self
    cases point with
    | half unit => cases own
    | scalar c => exact ⟨c :: cs, rfl, List.forall_mem_cons.mpr ⟨own, each⟩⟩

theorem looksLikeIndex_iff {body : Text} : looksLikeIndex body = true ↔
    ∃ dashes cs, body = Text.ofChars (List.replicate dashes '-' ++ cs) ∧ cs ≠ [] ∧
      ∀ c ∈ cs, isDigitForm c = true := by
  constructor
  · intro looks
    simp only [looksLikeIndex, Bool.and_eq_true, Bool.not_eq_true', List.isEmpty_eq_false_iff, List.all_eq_true] at looks
    obtain ⟨cs, shape, digits⟩ := exists_chars looks.2
    have dashes : body.takeWhile (· == .scalar '-') =
        Text.ofChars (List.replicate (body.takeWhile (· == .scalar '-')).length '-') := by
      rw [Text.ofChars, List.map_replicate]
      exact List.eq_replicate_of_mem fun point member => by simpa using List.mem_takeWhile_imp member
    refine ⟨(body.takeWhile (· == .scalar '-')).length, cs, ?_, ?_, digits⟩
    · rw [ofChars_append, ← dashes, ← shape, List.takeWhile_append_dropWhile]
    · rintro rfl
      exact looks.1 shape
  · rintro ⟨dashes, cs, rfl, some, digits⟩
    obtain ⟨c, rest, rfl⟩ := List.exists_cons_of_ne_nil some
    have first := digits c List.mem_cons_self
    have noDash : c ≠ '-' := by rintro rfl; exact absurd first (by decide)
    have behind : (Text.ofChars (List.replicate dashes '-' ++ c :: rest)).dropWhile (· == .scalar '-') =
        Text.ofChars (c :: rest) := by
      rw [ofChars_append, List.dropWhile_append_of_pos]
      · simp [Text.ofChars, noDash]
      · simp [Text.ofChars]
    simp only [looksLikeIndex, behind, Bool.and_eq_true, Bool.not_eq_true', List.isEmpty_eq_false_iff, List.all_eq_true]
    refine ⟨by simp [Text.ofChars], fun point member => ?_⟩
    obtain ⟨d, listed, rfl⟩ := List.mem_map.mp member
    exact digits d listed

theorem misspelled_iff (body : Text) : Misspelled body ↔
    looksLikeIndex body = true ∧ body.scalars?.bind Numeral.integer? = none := by
  rw [looksLikeIndex_iff]
  have spells (dashes : Nat) {cs : List Char} (some : cs ≠ []) (digits : ∀ c ∈ cs, isDigitForm c = true) :
      (Text.ofChars (List.replicate dashes '-' ++ cs)).scalars?.bind Numeral.integer? = none ↔
        1 < dashes ∨ (∃ c ∈ cs, isDecimalDigit c = false) ∨ Numeral.digitLimit < cs.length := by
    rw [Text.scalars?_ofChars, Option.bind_some, ← Option.not_isSome_iff_eq_none, Numeral.integer?_dashed some digits]
    grind
  constructor
  · rintro ⟨dashes, cs, rfl, some, digits, wrong⟩
    exact ⟨⟨dashes, cs, rfl, some, digits⟩, (spells dashes some digits).mpr wrong⟩
  · rintro ⟨⟨dashes, cs, rfl, some, digits⟩, none⟩
    exact ⟨dashes, cs, rfl, some, digits, (spells dashes some digits).mp none⟩

theorem unquoted?_eq_none {body : Text} (looks : looksLikeIndex body = true) : unquoted? body = none := by
  obtain ⟨dashes, cs, rfl, some, digits⟩ := looksLikeIndex_iff.mp looks
  by_contra quoted
  obtain ⟨name, found⟩ := Option.ne_none_iff_exists'.mp quoted
  obtain ⟨mark, shape⟩ := unquoted?_eq_some found
  have listed : mark.point ∈ Text.ofChars (List.replicate dashes '-' ++ cs) := shape ▸ List.mem_cons_self
  obtain ⟨c, member, same⟩ := List.mem_map.mp listed
  rcases List.mem_append.mp member with dash | digit
  · cases List.eq_of_mem_replicate dash
    cases mark <;> cases same
  · have form := digits c digit
    cases mark <;> cases same <;> exact absurd form (by decide)

theorem bracketStep_eq_error {inside : Text} {fault : Fault} : bracketStep inside = .error fault ↔
    Misspelled (Text.trim inside) ∧ fault = .notAnIndex (Text.trim inside) := by
  rw [misspelled_iff]
  unfold bracketStep
  simp only
  cases looks : looksLikeIndex (Text.trim inside) with
  | false =>
    simp only [Bool.false_eq_true, if_false, false_and, iff_false]
    split
    · nofun
    · split <;> nofun
  | true =>
    have noStar : Text.trim inside ≠ [.scalar '*'] := fun star => by
      rw [star] at looks
      exact absurd looks (by decide)
    rw [if_neg noStar, unquoted?_eq_none looks]
    simp only [if_true, true_and]
    cases spelled : (Text.trim inside).scalars?.bind Numeral.integer? with
    | none => simp [eq_comm]
    | some i => simp

theorem bracketStep_isOk {inside : Text} :
    (∃ step, bracketStep inside = .ok step) ↔ ¬ Misspelled (Text.trim inside) := by
  have failed (fault : Fault) : bracketStep inside = .error fault ↔
      Misspelled (Text.trim inside) ∧ fault = .notAnIndex (Text.trim inside) := bracketStep_eq_error
  cases outcome : bracketStep inside with
  | ok step => simpa [outcome] using failed (.notAnIndex (Text.trim inside))
  | error fault => simpa using ((failed fault).mp outcome).1

/-! ## Paths -/

theorem bodies_bracket (rest : Text) : bodies (.scalar '[' :: rest) =
    Text.trim (enclosed .inside rest).1 :: bodies (enclosed .inside rest).2 := by
  rw [bodies, if_pos rfl, bracket_eq .inside rfl]

theorem bodies_cons {point : CodePoint} (other : point ≠ .scalar '[') (rest : Text) :
    bodies (point :: rest) = bodies rest := by
  rw [bodies, if_neg other]

theorem bodies_name (t : Text) : bodies (t.dropWhile (!isBreak ·)) = bodies t := by
  induction t with
  | nil => rfl
  | cons point t ih =>
    cases breaks : isBreak point with
    | true => simp [breaks]
    | false => simpa [breaks, bodies_cons (ne_bracket breaks)] using ih

def FirstFault (bodies : List Text) (fault : Fault) : Prop :=
  ∃ before body after, bodies = before ++ body :: after ∧ (∀ other ∈ before, ¬ Misspelled other) ∧
    Misspelled body ∧ fault = .notAnIndex body

theorem firstFault_cons {body : Text} {rest : List Text} {fault : Fault} : FirstFault (body :: rest) fault ↔
    (Misspelled body ∧ fault = .notAnIndex body) ∨ (¬ Misspelled body ∧ FirstFault rest fault) := by
  constructor
  · rintro ⟨before, own, after, shape, spelled, wrong, rfl⟩
    cases before with
    | nil =>
      cases shape
      exact .inl ⟨wrong, rfl⟩
    | cons first before =>
      cases shape
      exact .inr ⟨spelled _ List.mem_cons_self,
        before, own, after, rfl, fun other member => spelled other (List.mem_cons_of_mem _ member), wrong, rfl⟩
  · rintro (⟨wrong, rfl⟩ | ⟨right, before, own, after, rfl, spelled, wrong, rfl⟩)
    · exact ⟨[], body, rest, rfl, by simp, wrong, rfl⟩
    · exact ⟨body :: before, own, after, rfl, List.forall_mem_cons.mpr ⟨right, spelled⟩, wrong, rfl⟩

theorem exists_firstFault {bodies : List Text} : (∃ fault, FirstFault bodies fault) ↔ ∃ body ∈ bodies, Misspelled body := by
  induction bodies with
  | nil => simp [FirstFault]
  | cons body rest ih =>
    simp only [firstFault_cons, exists_or, List.mem_cons, exists_eq_or_imp]
    by_cases wrong : Misspelled body
    · simp [wrong]
    · simpa [wrong] using ih

theorem inTurn_eq_error {first second : Except Fault (List Step)} {fault : Fault} :
    inTurn first second = .error fault ↔
      first = .error fault ∨ (∃ steps, first = .ok steps) ∧ second = .error fault := by
  cases first <;> cases second <;> simp [inTurn]

theorem scan_eq_error {t : Text} {fault : Fault} : scan t = .error fault ↔ FirstFault (bodies t) fault := by
  induction t using scan_induction with
  | nil => simp [scan_nil, bodies, FirstFault]
  | bracket rest ih =>
    have single : (∃ steps, (bracketStep (enclosed .inside rest).1).map ([·]) = .ok steps) ↔
        ¬ Misspelled (Text.trim (enclosed .inside rest).1) := by
      rw [← bracketStep_isOk]
      cases bracketStep (enclosed .inside rest).1 <;> simp [Except.map]
    rw [scan_bracket, inTurn_eq_error, map_eq_error, bracketStep_eq_error, ih, bodies_bracket, firstFault_cons, single]
  | dot rest ih => rw [scan_dot, bodies_cons (by decide), ih]
  | name point rest plain ih =>
    rw [scan_name plain, bodies_cons (ne_bracket plain), inTurn_eq_error, ih, bodies_name]
    simp

theorem bodies_normalize (path : Text) : bodies ((normalize path).drop 1) = bodies (normalize path) := by
  rcases normalize_shape path with empty | ⟨rest, shape⟩
  · rw [empty, List.drop_nil]
  · rw [shape, bodies_cons (by decide)]
    rfl

/--
Every path has steps, unless one of its brackets is taken for an index and spells no integer; the first such
bracket is the fault.
-/
theorem steps_isOk_iff (path : Text) :
    ((∃ found, steps path = .ok found) ↔ ∀ body ∈ bodies (normalize path), ¬ Misspelled body) ∧
    ∀ fault, steps path = .error fault ↔ ∃ before body after, bodies (normalize path) = before ++ body :: after ∧
      (∀ other ∈ before, ¬ Misspelled other) ∧ Misspelled body ∧ fault = .notAnIndex body := by
  have faults (fault : Fault) : steps path = .error fault ↔ FirstFault (bodies (normalize path)) fault := by
    rw [steps, scan_eq_error, bodies_normalize]
  refine ⟨?_, faults⟩
  have outcome : (∃ found, steps path = .ok found) ↔ ¬ ∃ fault, steps path = .error fault := by
    cases steps path <;> simp
  simp only [outcome, faults, exists_firstFault, not_exists, not_and]

/-- A superscript digit and a second dash are taken for indices. -/
theorem steps_misspelled :
    steps (Text.ofString "$.tags[²]") = .error (.notAnIndex (Text.ofString "²")) ∧
      steps (Text.ofString "$.tags[--1]") = .error (.notAnIndex (Text.ofString "--1")) ∧
      ¬ ∀ path, ∃ found, steps path = .ok found := by
  have superscript : steps (Text.ofString "$.tags[²]") = .error (.notAnIndex (Text.ofString "²")) := by decide +kernel
  have dashes : steps (Text.ofString "$.tags[--1]") = .error (.notAnIndex (Text.ofString "--1")) := by decide +kernel
  refine ⟨superscript, dashes, fun always => ?_⟩
  obtain ⟨found, read⟩ := always (Text.ofString "$.tags[²]")
  cases superscript.symm.trans read

end Path

end ProfileConnector
