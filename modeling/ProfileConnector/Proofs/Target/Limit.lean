import ProfileConnector.Proofs.Number.Integral
import ProfileConnector.Proofs.Number.Written
import ProfileConnector.Proofs.Outcome
import ProfileConnector.Target.CSharp
import ProfileConnector.Target.Python
import ProfileConnector.Target.TypeScript
import Std.Data.String.ToInt

/-!
Limits of lengths in the targets. TypeScript and Python show a length in decimal. C# shows the nearest
binary number, so the check of a text is the check with rounded lengths: a length that 53 bits do not keep
becomes another one, and a length beyond the binary numbers has no check at all.
-/

namespace ProfileConnector

open Outcome

namespace Constraints

def lengths (limits : Constraints) : List Int := limits.minLength.toList ++ limits.maxLength.toList

def rounded (limits : Constraints) : Constraints :=
  { limits with
    minLength := limits.minLength.map Binary64.nearest
    maxLength := limits.maxLength.map Binary64.nearest }

theorem forall_lengths {p : Int → Prop} {limits : Constraints} :
    (∀ n ∈ limits.lengths, p n) ↔ (∀ n ∈ limits.minLength, p n) ∧ ∀ n ∈ limits.maxLength, p n := by
  simp [lengths, or_imp, forall_and]

theorem exists_lengths {p : Int → Prop} {limits : Constraints} :
    (∃ n ∈ limits.lengths, p n) ↔ (∃ n ∈ limits.minLength, p n) ∨ ∃ n ∈ limits.maxLength, p n := by
  simp [lengths, or_and_right, exists_or]

theorem lengths_eq_nil {limits : Constraints} (unlimited : limits.hasString = false) : limits.lengths = [] := by
  simp only [hasString, Bool.or_eq_false_iff, Option.isSome_eq_false_iff, Option.isNone_iff_eq_none] at unlimited
  simp [lengths, unlimited]

theorem hasString_rounded (limits : Constraints) : limits.rounded.hasString = limits.hasString := by
  simp [hasString, rounded]

end Constraints

namespace CSharp

open Binary64

/-! ## Lengths -/

def decimal : Option Int → String
  | none => noValue
  | some n => toString n

theorem integralText_of_whole {x : Binary64} {value : Int} (whole : Whole x value) : x.integralText = toString value := by
  rw [integralText, if_pos whole.1, whole.2]

theorem lengthLiteral_eq (length : Option Int) :
    ((∃ n ∈ length, ceiling ≤ n.natAbs) ∧ lengthLiteral length = .error .lengthOverflow) ∨
      ((∀ n ∈ length, n.natAbs < ceiling) ∧ lengthLiteral length = .ok (decimal (length.map nearest))) := by
  cases length with
  | none => exact .inr ⟨by simp, rfl⟩
  | some n =>
    rcases ofInt?_eq n with ⟨large, infinite⟩ | ⟨small, x, finite, whole⟩
    · exact .inl ⟨⟨n, rfl, large⟩, by rw [lengthLiteral, infinite]⟩
    · refine .inr ⟨by simpa using small, ?_⟩
      rw [lengthLiteral, finite]
      exact congrArg Except.ok (integralText_of_whole whole)

theorem comma_not_mem_decimal (length : Option Int) : ',' ∉ (decimal length).toList := by
  cases length with
  | none => decide
  | some n => exact (Numeral.int n).not_mem (by decide)

theorem decimal_injective : Function.Injective decimal := by
  have number (n : Int) : toString n ≠ noValue := fun same =>
    (Numeral.int n).not_mem (c := 'u') (by decide) (same ▸ by decide)
  intro a b same
  match a, b with
  | none, none => rfl
  | none, some n => exact absurd same.symm (number n)
  | some n, none => exact absurd same (number n)
  | some m, some n => exact congrArg some (Int.repr_injective same)

theorem cons_comma_inj {a b : Option Int} {s t : String} (same : decimal a ++ ", " ++ s = decimal b ++ ", " ++ t) :
    a = b ∧ s = t := by
  have front (length : Option Int) (rest : String) :
      (decimal length ++ ", " ++ rest).toList.takeWhile (· != ',') = (decimal length).toList := by
    have plain : ∀ c ∈ (decimal length).toList, (c != ',') = true := fun c member => by
      simpa using ne_of_mem_of_not_mem member (comma_not_mem_decimal length)
    rw [String.append_assoc, String.toList_append, List.takeWhile_append_of_pos plain]
    simp
  have first : decimal a = decimal b := by
    rw [← String.toList_inj, ← front a s, ← front b t, same]
  rw [first, String.append_right_inj] at same
  exact ⟨decimal_injective first, same⟩

/-! ## Checks of texts -/

def shownLimits (limits : Constraints) : String :=
  Layout.items [decimal limits.minLength, decimal limits.maxLength, textLiteral limits.pattern, textLiteral limits.format]

theorem shownLimits_inj {a b : Constraints} (pattern : a.pattern = b.pattern) (format : a.format = b.format) :
    shownLimits a = shownLimits b ↔ a.minLength = b.minLength ∧ a.maxLength = b.maxLength := by
  have parts (limits : Constraints) : shownLimits limits = decimal limits.minLength ++ ", " ++
      (decimal limits.maxLength ++ ", " ++ (textLiteral limits.pattern ++ ", " ++ textLiteral limits.format)) := by
    simp [shownLimits, Layout.items, String.append_assoc]
  rw [parts, parts]
  constructor
  · intro same
    obtain ⟨least, others⟩ := cons_comma_inj same
    exact ⟨least, (cons_comma_inj others).1⟩
  · rintro ⟨least, most⟩
    rw [least, most, pattern, format]

def textCheck (type : PropertyType) (name expression : String) (literal : Option String) (arguments : String) : String :=
  match type, literal with
  | .dateTime, some source =>
    let raw := s!"RowParser.ReadValue(row, {source})"
    s!"RowParser.ParseDateTime(Validation.ValidateString({Text.quote name}, {raw}, {arguments}))"
  | _, _ =>
    let helper := if type.isCollection then "ValidateStringCollection" else "ValidateString"
    s!"Validation.{helper}({Text.quote name}, {expression}, {arguments})"

theorem textCheck_injective (type : PropertyType) (name expression : String) (literal : Option String) :
    Function.Injective (textCheck type name expression literal) := by
  intro a b same
  unfold textCheck at same
  split at same
  · exact (String.append_right_inj _).mp ((String.append_left_inj _).mp same)
  · exact (String.append_right_inj _).mp ((String.append_left_inj _).mp same)

/-- The expression with the check that its limits ask for, the lengths in decimal. -/
def checked (type : PropertyType) (name expression : String) (limits : Constraints) (literal : Option String) : String :=
  if limits.hasString then textCheck type name expression literal (shownLimits limits) else expression

variable {type : PropertyType} {limits : Constraints}

theorem textLimits_eq (limits : Constraints) :
    ((∃ n ∈ limits.lengths, ceiling ≤ n.natAbs) ∧ textLimits limits = .error .lengthOverflow) ∨
      ((∀ n ∈ limits.lengths, n.natAbs < ceiling) ∧ textLimits limits = .ok (shownLimits limits.rounded)) := by
  rw [Constraints.exists_lengths, Constraints.forall_lengths]
  rcases lengthLiteral_eq limits.minLength with ⟨large, failed⟩ | ⟨small, least⟩
  · exact .inl ⟨.inl large, by rw [textLimits, failed]; rfl⟩
  · rcases lengthLiteral_eq limits.maxLength with ⟨large, failed⟩ | ⟨small', most⟩
    · exact .inl ⟨.inr large, by rw [textLimits, least, failed]; rfl⟩
    · exact .inr ⟨⟨small, small'⟩, by rw [textLimits, least, most]; rfl⟩

theorem validated_textual (textual : type ≠ .boolean ∧ type.isNumeric = false) (name expression : String)
    (limits : Constraints) (literal : Option String) : validated type name expression limits literal =
      if limits.hasString then (textLimits limits).map (textCheck type name expression literal) else .ok expression := by
  unfold validated
  rw [if_neg textual.1, textual.2]
  cases limits.hasString with
  | false => rfl
  | true =>
    simp only [Bool.not_true, Bool.false_eq_true, if_false, if_true]
    refine bind_eq_map (fun arguments => ?_) _
    cases type <;> cases literal <;> rfl

theorem validated_eq (textual : type ≠ .boolean ∧ type.isNumeric = false) (name expression : String)
    (limits : Constraints) (literal : Option String) :
    ((∃ n ∈ limits.lengths, ceiling ≤ n.natAbs) ∧
        validated type name expression limits literal = .error .lengthOverflow) ∨
      ((∀ n ∈ limits.lengths, n.natAbs < ceiling) ∧
        validated type name expression limits literal = .ok (checked type name expression limits.rounded literal)) := by
  rw [validated_textual textual, checked, Constraints.hasString_rounded]
  cases limited : limits.hasString with
  | false => exact .inr ⟨by simp [Constraints.lengths_eq_nil limited], rfl⟩
  | true =>
    rcases textLimits_eq limits with ⟨large, failed⟩ | ⟨small, shown⟩
    · exact .inl ⟨large, by rw [failed]; rfl⟩
    · exact .inr ⟨small, by rw [shown]; rfl⟩

theorem checked_rounded_iff (type : PropertyType) (name expression : String) (limits : Constraints)
    (literal : Option String) : checked type name expression limits.rounded literal =
      checked type name expression limits literal ↔ ∀ n ∈ limits.lengths, Keeps n.natAbs := by
  have kept (length : Option Int) : length.map nearest = length ↔ ∀ n ∈ length, Keeps n.natAbs := by
    cases length <;> simp [nearest_eq_iff]
  rw [checked, checked, Constraints.hasString_rounded, Constraints.forall_lengths, ← kept, ← kept]
  cases limited : limits.hasString with
  | false =>
    simp only [Constraints.hasString, Bool.or_eq_false_iff, Option.isSome_eq_false_iff, Option.isNone_iff_eq_none] at limited
    simp [limited]
  | true =>
    rw [if_pos rfl, if_pos rfl, (textCheck_injective type name expression literal).eq_iff]
    exact shownLimits_inj rfl rfl

/--
The lengths of a check are written in decimal just if each is an integer that 53 bits keep and below the
ceiling; a length from the ceiling on makes the writing fail, and nothing else does. Below the ceiling
TypeScript and Python show every length in decimal.
-/
theorem validated_lengths_iff (textual : type ≠ .boolean ∧ type.isNumeric = false) (name expression : String)
    (limits : Constraints) (literal : Option String) :
    (validated type name expression limits literal = .ok (checked type name expression limits literal) ↔
        ∀ n ∈ limits.lengths, Keeps n.natAbs ∧ n.natAbs < ceiling) ∧
      (validated type name expression limits literal = .error .lengthOverflow ↔
        ∃ n ∈ limits.lengths, ceiling ≤ n.natAbs) ∧
      (∀ n ∈ limits.minLength, n.natAbs < ceiling → "minLength: " ++ toString n ∈ TypeScript.textLimits limits ∧
        "min_length=" ++ toString n ∈ Term.writeOptions (Python.textLimits limits)) ∧
      (∀ n ∈ limits.maxLength, n.natAbs < ceiling → "maxLength: " ++ toString n ∈ TypeScript.textLimits limits ∧
        "max_length=" ++ toString n ∈ Term.writeOptions (Python.textLimits limits)) := by
  refine ⟨?_, ?_, fun n given _ => ?_, fun n given _ => ?_⟩
  · rcases validated_eq textual name expression limits literal with ⟨⟨n, listed, large⟩, failed⟩ | ⟨small, written⟩
    · rw [failed]
      refine iff_of_false nofun fun each => ?_
      exact absurd (each n listed).2 (Nat.not_lt.mpr large)
    · rw [written, Except.ok.injEq, checked_rounded_iff]
      exact forall₂_congr fun n listed => (and_iff_left (small n listed)).symm
  · rcases validated_eq textual name expression limits literal with ⟨large, failed⟩ | ⟨small, written⟩
    · exact iff_of_true failed large
    · rw [written]
      refine iff_of_false nofun ?_
      rintro ⟨n, listed, large⟩
      exact absurd (small n listed) (Nat.not_lt.mpr large)
  · have known : limits.minLength = some n := given
    have joined : "min_length" ++ "=" = "min_length=" := by decide
    constructor
    · simp only [TypeScript.textLimits, known, Option.map_some, Option.toList_some, List.mem_append, List.mem_singleton]
      exact .inl (.inl (.inl rfl))
    · simp [Term.writeOptions, Python.textLimits, known, Constant.write, joined]
  · have known : limits.maxLength = some n := given
    have joined : "max_length" ++ "=" = "max_length=" := by decide
    constructor
    · simp only [TypeScript.textLimits, known, Option.map_some, Option.toList_some, List.mem_append, List.mem_singleton]
      exact .inl (.inl (.inr rfl))
    · simp [Term.writeOptions, Python.textLimits, known, Constant.write, joined]

/-- A negative length of 55 bits that is a multiple of four, and a power of two. -/
theorem validated_lengths_iff_long :
    let limits : Constraints := { minLength := some (-18014398509481988), maxLength := some (2 ^ 62) }
    (PropertyType.string ≠ .boolean ∧ PropertyType.string.isNumeric = false) ∧
      validated .string "p" "expr" limits none = .ok
        "Validation.ValidateString(\"p\", expr, -18014398509481988, 4611686018427387904, null, null)" := by
  intro limits
  have textual : PropertyType.string ≠ .boolean ∧ PropertyType.string.isNumeric = false := by decide
  have near : ∀ n ∈ limits.lengths, nearest n = n ∧ n.natAbs.log2 ≤ 1022 := by decide +kernel
  have kept : ∀ n ∈ limits.lengths, Keeps n.natAbs ∧ n.natAbs < ceiling := fun n listed =>
    (near n listed).imp nearest_eq_iff.mp lt_ceiling
  exact ⟨textual, (validated_lengths_iff textual "p" "expr" limits none).1.mpr kept⟩

/-- The first length that needs 54 bits is lost, and a length of 310 digits cannot be written. -/
theorem lengths_lose_unit :
    let limits : Constraints := { minLength := some 9007199254740993 }
    validated .string "p" "expr" limits none =
        .ok "Validation.ValidateString(\"p\", expr, 9007199254740992, null, null, null)" ∧
      TypeScript.validated .string "p" "expr" limits = "validateString(\"p\", expr, \x7b minLength: 9007199254740993 \x7d)" ∧
      validated .string "p" "expr" limits none ≠ .ok (checked .string "p" "expr" limits none) ∧
      validated .string "p" "expr" { maxLength := some (10 ^ 309) } none = .error .lengthOverflow := by
  decide +kernel

end CSharp

end ProfileConnector
