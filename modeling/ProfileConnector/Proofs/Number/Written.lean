import ProfileConnector.Number.Shortest
import ProfileConnector.Proofs.Text.Trimmed

/-!
Written numbers. Whatever its size, a number is written with digits, signs, the point and the mark of an
exponent, and with no other characters.
-/

namespace ProfileConnector

def isNumeral (c : Char) : Bool := Text.isAsciiDigit c || c == '.' || c == 'e' || c == '+' || c == '-'

structure Numeral (cs : List Char) : Prop where
  filled : cs ≠ []
  each : ∀ c ∈ cs, isNumeral c = true

namespace Numeral

theorem not_mem {cs : List Char} (numeral : Numeral cs) {c : Char} (foreign : isNumeral c = false) : c ∉ cs :=
  fun inside => by simp [numeral.each c inside] at foreign

theorem behind {front back : List Char} (first : ∀ c ∈ front, isNumeral c = true) (second : Numeral back) :
    Numeral (front ++ back) :=
  ⟨List.append_ne_nil_of_right_ne_nil front second.filled, List.forall_mem_append.mpr ⟨first, second.each⟩⟩

theorem cons {c : Char} {rest : List Char} (first : isNumeral c = true) (others : ∀ d ∈ rest, isNumeral d = true) :
    Numeral (c :: rest) :=
  ⟨List.cons_ne_nil c rest, List.forall_mem_cons.mpr ⟨first, others⟩⟩

theorem append {front back : List Char} (first : Numeral front) (others : ∀ c ∈ back, isNumeral c = true) :
    Numeral (front ++ back) :=
  ⟨List.append_ne_nil_of_left_ne_nil first.filled back, List.forall_mem_append.mpr ⟨first.each, others⟩⟩

theorem repr (n : Nat) : Numeral (Nat.repr n).toList := by
  refine ⟨by rw [Nat.toList_repr]; exact Nat.toDigits_ne_nil, fun c member => ?_⟩
  simp [isNumeral, Text.isAsciiDigit_of_mem_repr member]

theorem int (n : Int) : Numeral (toString n).toList := by
  have shown : toString n = if 0 ≤ n then toString n.toNat else "-" ++ toString (-n).toNat := Int.repr_eq_if
  rw [shown]
  split
  · exact repr _
  · rw [String.toList_append]
    exact behind (List.all_eq_true.mp (by decide)) (repr _)

theorem zeros (n : Nat) : ∀ c ∈ List.replicate n '0', isNumeral c = true := fun c member => by
  rw [List.eq_of_mem_replicate member]
  decide

theorem not_isBlank {c : Char} (numeral : isNumeral c = true) : Text.isBlank c = false := by
  simp only [isNumeral, Bool.or_eq_true, beq_iff_eq] at numeral
  rcases numeral with (((digit | rfl) | rfl) | rfl) | rfl
  · exact Text.isBlank_of_part (by simp [Identifier.isPart, Identifier.isAsciiWordChar, digit])
  all_goals decide

end Numeral

namespace Binary64

theorem numeral_positional {digits : List Char} (numeral : Numeral digits) (point : Int) :
    Numeral (positional digits point) := by
  unfold positional
  split
  · exact .cons (by decide) (List.forall_mem_cons.mpr ⟨by decide, (Numeral.behind (Numeral.zeros _) numeral).each⟩)
  · split
    · exact (numeral.append (Numeral.zeros _)).append (List.all_eq_true.mp (by decide))
    · exact .behind (fun c member => numeral.each c (List.mem_of_mem_take member))
        (.cons (by decide) fun c member => numeral.each c (List.mem_of_mem_drop member))

theorem numeral_exponential {digits : List Char} (numeral : Numeral digits) (power : Int) :
    Numeral (exponential digits power) := by
  unfold exponential
  refine .behind ?_ (.cons (by decide) (List.forall_mem_cons.mpr ⟨?_, ?_⟩))
  · split
    · rename_i first second rest
      obtain ⟨own, others⟩ := List.forall_mem_cons.mp numeral.each
      exact List.forall_mem_cons.mpr ⟨own, List.forall_mem_cons.mpr ⟨by decide, others⟩⟩
    · exact numeral.each
  · split <;> decide
  · split
    · exact (Numeral.cons (by decide) (Numeral.repr _).each).each
    · exact (Numeral.repr _).each

theorem numeral_magnitudeChars (mantissa : Nat) (exponent : Int) : Numeral (magnitudeChars mantissa exponent) := by
  unfold magnitudeChars
  split
  · exact .cons (by decide) (List.all_eq_true.mp (by decide))
  · dsimp only
    split
    · exact numeral_positional (Numeral.repr _) _
    · exact numeral_exponential (Numeral.repr _) _

theorem numeral_textWith (nan infinity : String) (x : Binary64) :
    Numeral (x.textWith nan infinity).toList ∨ x.textWith nan infinity = nan ∨
      x.textWith nan infinity = infinity ∨ x.textWith nan infinity = "-" ++ infinity := by
  cases x with
  | nan => exact .inr (.inl rfl)
  | infinite negative => cases negative <;> simp [textWith]
  | finite negative mantissa exponent =>
    refine .inl ?_
    rw [textWith, String.toList_append, String.toList_ofList]
    refine .behind (List.all_eq_true.mp ?_) (numeral_magnitudeChars mantissa exponent)
    cases negative <;> decide

end Binary64

end ProfileConnector
