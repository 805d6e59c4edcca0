import ProfileConnector.Proofs.Number.Integral
import ProfileConnector.Proofs.Outcome
import ProfileConnector.Proofs.Row.Texts

/-!
Lists of integers and single integers. A list of integers is read through binary numbers, a single integer
only where its text has a point or an exponent. The two readings part at the integers that 53 bits do
not keep, and nowhere else.
-/

namespace ProfileConnector.Row

open Outcome Text

/-! ## Texts that are read -/

theorem exists_chars_of_scalars? {t : Text} {cs : List Char} (found : t.scalars? = some cs) : t = Text.ofChars cs := by
  induction t generalizing cs with
  | nil => cases found; rfl
  | cons point rest ih =>
    cases point with
    | half unit => cases found
    | scalar c =>
      obtain ⟨others, inner, rfl⟩ := Option.map_eq_some_iff.mp found
      rw [ih inner]
      rfl

theorem texts_trimmed {value : Value} {t : Text} (listed : t ∈ texts value) : Text.trim t = t := by
  by_cases items : ∃ items, value = .list items
  · obtain ⟨items, rfl⟩ := items
    obtain ⟨inner, _⟩ := List.mem_filter.mp listed
    obtain ⟨item, _, rfl⟩ := List.mem_map.mp inner
    exact trim_text item
  · rw [texts_of_plain (not_exists.mp items)] at listed
    obtain ⟨inner, _⟩ := List.mem_filter.mp listed
    obtain ⟨part, _, rfl⟩ := List.mem_map.mp inner
    exact trimBy_trimBy isBlankPoint part

theorem integer?_of_mem {value : Value} {t : Text} (listed : t ∈ texts value) :
    integer? (.text t) = (integer t).map some := by
  have own : text (.text t) = t := texts_trimmed listed
  have filled : t.isEmpty ≠ true := by simpa using texts_filled listed
  rw [integer?, own, if_neg filled]

/-! ## One text -/

/-- The text has no point and no mark of an exponent. -/
def Unmarked (t : Text) : Prop := ∀ mark ∈ [CodePoint.scalar '.', .scalar 'e', .scalar 'E'], mark ∉ t

instance (t : Text) : Decidable (Unmarked t) :=
  inferInstanceAs (Decidable (∀ mark ∈ [CodePoint.scalar '.', .scalar 'e', .scalar 'E'], mark ∉ t))

def throughBinary (t : Text) : Except RowFault Int := do truncated (← float t)

theorem marked_iff {t : Text} :
    (t.any fun point => [CodePoint.scalar '.', .scalar 'e', .scalar 'E'].contains point) = true ↔ ¬ Unmarked t := by
  simp only [Unmarked, List.any_eq_true, List.contains_iff_mem]
  push Not
  constructor
  · rintro ⟨point, inside, mark⟩
    exact ⟨point, mark, inside⟩
  · rintro ⟨mark, own, inside⟩
    exact ⟨mark, inside, own⟩

theorem integer_of_marked {t : Text} (marked : ¬ Unmarked t) : integer t = throughBinary t := by
  rw [integer, if_pos (marked_iff.mpr marked)]
  rfl

theorem truncated_eq_ok {x : Binary64} {n : Int} (read : truncated x = .ok n) : x.truncated? = some n := by
  cases x with
  | nan => cases read
  | infinite negative => cases read
  | finite negative mantissa exponent =>
    cases read
    rfl

theorem float_of_integer {t : Text} {n : Int} (plain : Unmarked t) (read : integer t = .ok n) :
    ∃ negative magnitude, n = Binary64.signed negative magnitude ∧
      float t = .ok (Binary64.ofScientific negative magnitude 0) := by
  rw [integer, if_neg (mt marked_iff.mp (not_not_intro plain))] at read
  cases chars : t.scalars? with
  | none => simp [chars] at read
  | some cs =>
    rw [chars, Option.bind_some] at read
    cases spelled : Numeral.integer? cs with
    | none => simp [spelled] at read
    | some value =>
      obtain rfl : value = n := by simpa [spelled] using read
      have unmarked : ∀ c ∈ cs, c ≠ '.' ∧ c ≠ 'e' ∧ c ≠ 'E' := by
        intro c member
        have inside : CodePoint.scalar c ∈ t := by
          rw [exists_chars_of_scalars? chars]
          exact List.mem_map_of_mem member
        refine ⟨?_, ?_, ?_⟩ <;> rintro rfl <;> exact plain _ (by simp) inside
      obtain ⟨negative, magnitude, own, number⟩ := Numeral.binary64?_of_integer? spelled unmarked
      refine ⟨negative, magnitude, own, ?_⟩
      rw [float, chars, Option.bind_some, number]

theorem throughBinary_eq_iff {t : Text} {n m : Int} (rounded : throughBinary t = .ok n) (precise : integer t = .ok m) :
    n = m ↔ (Unmarked t → Binary64.Keeps m.natAbs) := by
  by_cases plain : Unmarked t
  · obtain ⟨negative, magnitude, rfl, number⟩ := float_of_integer plain precise
    rw [throughBinary, number] at rounded
    rw [Binary64.truncated?_ofScientific (truncated_eq_ok rounded), Binary64.natAbs_signed]
    simp [plain]
  · rw [integer_of_marked plain, rounded, Except.ok.injEq] at precise
    simp [precise, plain]

/-! ## Lists -/

/--
Where both readings have results, a list of integers is the list of the single integers exactly if 53 bits
keep every integer that is written without a point and an exponent.
-/
theorem integers_agree_iff {value : Value} {many : List Int} {single : List (Option Int)}
    (read : integers value = .ok many)
    (each : ((texts value).mapM fun t => integer? (.text t)) = .ok single) :
    many.map some = single ↔
      ∀ t ∈ texts value, Unmarked t → ∀ n, integer? (.text t) = .ok (some n) → Binary64.Keeps n.natAbs := by
  rw [map_eq_iff_of_mapM read each]
  refine forall₂_congr fun t listed => ?_
  obtain ⟨n, _, rounded⟩ := mapM_total read listed
  obtain ⟨m, _, own⟩ := mapM_total each listed
  rw [integer?_of_mem listed] at own ⊢
  obtain ⟨m, precise, rfl⟩ := map_eq_ok.mp own
  have same := throughBinary_eq_iff rounded precise
  simp only [rounded, precise, map_ok, Except.ok.injEq, Option.some.injEq, forall_eq']
  exact same

/-- An integer of more than 53 bits that is a multiple of four, and one that is written with a point. -/
theorem integers_agree_iff_long :
    let value : Value := .text (Text.ofString "18014398509481988; -9007199254740993.0")
    integers value = .ok [18014398509481988, -9007199254740992] ∧
      ((texts value).mapM fun t => integer? (.text t)) =
        .ok [some 18014398509481988, some (-9007199254740992)] ∧
      ∀ t ∈ texts value, Unmarked t → ∀ n, integer? (.text t) = .ok (some n) → Binary64.Keeps n.natAbs := by
  intro value
  have read : integers value = .ok [18014398509481988, -9007199254740992] := by decide +kernel
  have each : ((texts value).mapM fun t => integer? (.text t)) =
      .ok [some 18014398509481988, some (-9007199254740992)] := by decide +kernel
  exact ⟨read, each, (integers_agree_iff read each).mp rfl⟩

/-- The first integer that needs 54 bits is lost in a list. -/
theorem integers_lose_unit :
    let value : Value := .text (Text.ofString "9007199254740993")
    integers value = .ok [9007199254740992] ∧
      ((texts value).mapM fun t => integer? (.text t)) = .ok [some 9007199254740993] ∧
      [9007199254740992].map some ≠ [some (9007199254740993 : Int)] := by
  decide +kernel

end ProfileConnector.Row
