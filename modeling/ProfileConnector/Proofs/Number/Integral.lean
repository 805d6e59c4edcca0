import Mathlib.Algebra.Order.Group.Nat
import Mathlib.Tactic.Ring
import ProfileConnector.Number.Numeral

/-!
Integers as binary numbers. An integer is rounded to a multiple of the spacing at its place, so it is kept
exactly if it is a mantissa of 53 bits times a power of two. Only below a ceiling is there a number to round
it to. A numeral that spells an integer, read as a binary number, is this integer rounded.
-/

namespace ProfileConnector

namespace Binary64

/-! ## Rounding to integers -/

/-- The integer is a mantissa of 53 bits times a power of two. -/
def Keeps (n : Nat) : Prop := ∃ mantissa exponent : Nat, mantissa < 2 ^ 53 ∧ n = mantissa * 2 ^ exponent

theorem roundEven_mul (quotient : Nat) {den : Nat} (positive : 0 < den) :
    roundEven (quotient * den) den = quotient := by
  simp [roundEven, positive]

theorem roundEven_mul_eq_iff {n den : Nat} (positive : 0 < den) : roundEven n den * den = n ↔ den ∣ n := by
  constructor
  · intro same
    exact ⟨roundEven n den, by rw [Nat.mul_comm, same]⟩
  · rintro ⟨quotient, rfl⟩
    rw [Nat.mul_comm den quotient, roundEven_mul quotient positive]

/-- The distance between neighbouring binary numbers where an integer stands, at least one. -/
def spacing (n : Nat) : Nat := 2 ^ (n.log2 - 52)

theorem spacing_pos (n : Nat) : 0 < spacing n := Nat.two_pow_pos _

theorem spacing_dvd_iff {n : Nat} (nonzero : n ≠ 0) : spacing n ∣ n ↔ Keeps n := by
  constructor
  · rintro ⟨mantissa, shape⟩
    refine ⟨mantissa, n.log2 - 52, ?_, by rw [Nat.mul_comm]; exact shape⟩
    -- The integer is below the next power of two, which is at most 53 bits above its spacing.
    have below : n < 2 ^ (n.log2 + 1) := Nat.lt_log2_self
    have room : 2 ^ (n.log2 + 1) ≤ spacing n * 2 ^ 53 := by
      rw [spacing, ← Nat.pow_add]
      apply Nat.pow_le_pow_right Nat.two_pos
      omega
    have scaled : spacing n * mantissa < spacing n * 2 ^ 53 := by omega
    exact Nat.lt_of_mul_lt_mul_left scaled
  · rintro ⟨mantissa, exponent, bits, shape⟩
    have above : 2 ^ n.log2 ≤ n := Nat.log2_self_le nonzero
    have under : n < 2 ^ (53 + exponent) := by
      rw [Nat.pow_add, shape]
      exact Nat.mul_lt_mul_of_pos_right bits (Nat.two_pow_pos exponent)
    have powers : n.log2 < 53 + exponent := (Nat.pow_lt_pow_iff_right Nat.one_lt_two).mp (above.trans_lt under)
    rw [shape]
    apply Nat.dvd_mul_left_of_dvd
    rw [← shape]
    exact Nat.pow_dvd_pow 2 (by omega)

/-! ## Rounded integers as binary numbers -/

theorem exponentFor_one {n : Nat} (nonzero : n ≠ 0) : exponentFor n 1 = (n.log2 : Int) - 52 := by
  have above : 2 ^ n.log2 ≤ n := Nat.log2_self_le nonzero
  have high : ¬ (scaled n 1 ((n.log2 : Int) - 52)).1 / (scaled n 1 ((n.log2 : Int) - 52)).2 < Nat.pow 2 52 := by
    rw [Nat.not_lt]
    unfold scaled
    split
    · rename_i large
      rw [Nat.one_mul]
      apply (Nat.le_div_iff_mul_le (Nat.two_pow_pos _)).mpr
      refine Nat.le_trans (Nat.le_of_eq ?_) above
      change 2 ^ 52 * 2 ^ _ = _
      rw [← Nat.pow_add]
      congr 1
      omega
    · rename_i small
      rw [Nat.div_one]
      refine Nat.le_trans (Nat.le_of_eq ?_) (Nat.mul_le_mul_right _ above)
      change 2 ^ 52 = _ * 2 ^ _
      rw [← Nat.pow_add]
      congr 1
      omega
  have one : Nat.log2 1 = 0 := by decide
  simp only [exponentFor, one, Int.natCast_zero, Int.sub_zero, if_neg high, leastExponent]
  omega

def Whole (x : Binary64) (value : Int) : Prop := x.isIntegral = true ∧ x.truncated? = some value

theorem whole_finite (negative : Bool) (mantissa exponent : Nat) :
    Whole (finite negative mantissa exponent) (signed negative (mantissa * 2 ^ exponent)) := by
  simp [Whole, isIntegral, truncated?, fraction, Nat.mod_one]

/-- The multiple of the spacing next to an integer. -/
def rounded (n : Nat) : Nat := roundEven n (spacing n) * spacing n

theorem rounded_eq_iff {n : Nat} : rounded n = n ↔ Keeps n := by
  by_cases zero : n = 0
  · subst zero
    exact iff_of_true (by decide) ⟨0, 0, by decide, rfl⟩
  · rw [rounded, roundEven_mul_eq_iff (spacing_pos n), spacing_dvd_iff zero]

/-- Integers from here on are infinite: it is halfway between the largest number and the next power of two. -/
def ceiling : Nat := (2 ^ 54 - 1) * 2 ^ 970

theorem lt_ceiling {n : Nat} (small : n.log2 ≤ 1022) : n < ceiling := by
  obtain ⟨half, place⟩ : ∃ half : Nat, half = 970 := ⟨970, rfl⟩
  have upper : n < 2 ^ (n.log2 + 1) := Nat.lt_log2_self
  have power : 2 ^ (n.log2 + 1) ≤ 2 ^ 53 * 2 ^ half := by
    rw [← Nat.pow_add]
    exact Nat.pow_le_pow_right Nat.two_pos (by omega)
  rw [ceiling, ← place]
  omega

theorem ceiling_le {n : Nat} (large : 1024 ≤ n.log2) : ceiling ≤ n := by
  have some : n ≠ 0 := by
    rintro rfl
    simp at large
  obtain ⟨half, place⟩ : ∃ half : Nat, half = 970 := ⟨970, rfl⟩
  have lower : 2 ^ n.log2 ≤ n := Nat.log2_self_le some
  have power : 2 ^ 54 * 2 ^ half ≤ 2 ^ n.log2 := by
    rw [← Nat.pow_add]
    exact Nat.pow_le_pow_right Nat.two_pos (by omega)
  rw [ceiling, ← place]
  omega

theorem roundEven_carries_iff {n half : Nat} (positive : 0 < half) (below : n < 2 ^ 54 * half) :
    roundEven n (half * 2) = 2 ^ 53 ↔ (2 ^ 54 - 1) * half ≤ n := by
  rw [← Nat.le_div_iff_mul_le positive]
  have bound : n / half < 2 ^ 54 := (Nat.div_lt_iff_lt_mul positive).mpr below
  have rest : n % half < half := Nat.mod_lt n positive
  simp only [roundEven, ← Nat.div_div_eq_div_mul, Nat.mod_mul]
  -- The remainder has another half in it if the number of halves is odd.
  rcases Nat.mod_two_eq_zero_or_one (n / half) with even | odd
  · rw [even, Nat.mul_zero, Nat.add_zero, if_pos (.inl (by omega))]
    omega
  · rw [odd, Nat.mul_one]
    split <;> omega

/-- Below 2 ^ 52 an integer is scaled up to a mantissa, so nothing of it is lost. -/
theorem ofRatio_one_of_small (negative : Bool) {n : Nat} (nonzero : n ≠ 0) (small : n.log2 < 52) :
    Whole (ofRatio negative n 1) (signed negative (rounded n)) := by
  rw [ofRatio, if_neg nonzero, exponentFor_one nonzero]
  obtain ⟨k, positive, shift⟩ : ∃ k : Nat, 0 < k ∧ n.log2 + k = 52 := ⟨52 - n.log2, by omega, by omega⟩
  have exponent : (n.log2 : Int) - 52 = -(k : Int) := by omega
  have steps : spacing n = 1 := by simp [spacing, Nat.sub_eq_zero_of_le (Nat.le_of_lt small)]
  have parts : scaled n 1 (-(k : Int)) = (n * 2 ^ k, 1) := by
    simp [scaled, positive.ne']
  have whole (m : Nat) : roundEven m 1 = m := by simpa using roundEven_mul m Nat.one_pos
  have below : n * 2 ^ k < 2 ^ 53 := by
    have upper : n < 2 ^ (n.log2 + 1) := Nat.lt_log2_self
    calc n * 2 ^ k < 2 ^ (n.log2 + 1) * 2 ^ k := Nat.mul_lt_mul_of_pos_right upper (Nat.two_pow_pos k)
      _ = 2 ^ 53 := by
        rw [← Nat.pow_add]
        congr 1
        omega
  have uncarried : n * 2 ^ k ≠ Nat.pow 2 53 := Nat.ne_of_lt below
  have near : ¬ greatestExponent < -(k : Int) := by
    rw [greatestExponent]
    omega
  simp only [exponent, parts, rounded, steps, whole, if_neg uncarried, if_neg near]
  simp [Whole, isIntegral, truncated?, fraction, positive.ne']

/-- From 2 ^ 52 on an integer is rounded to its spacing; the mantissa may carry into the next exponent. -/
theorem ofRatio_one_of_large (negative : Bool) {n : Nat} (nonzero : n ≠ 0) (large : 52 ≤ n.log2) :
    (ceiling ≤ n ∧ ofRatio negative n 1 = .infinite negative) ∨
      (n < ceiling ∧ Whole (ofRatio negative n 1) (signed negative (rounded n))) := by
  rw [ofRatio, if_neg nonzero, exponentFor_one nonzero]
  obtain ⟨k, shift⟩ : ∃ k : Nat, n.log2 = 52 + k := ⟨n.log2 - 52, by omega⟩
  have exponent : (n.log2 : Int) - 52 = k := by omega
  have steps : spacing n = 2 ^ k := by rw [spacing, shift, Nat.add_sub_cancel_left]
  have parts : scaled n 1 k = (n, 2 ^ k) := by simp [scaled]
  -- Only at the last exponent does the carry decide, for there the next exponent is out of range.
  have last (same : k = 971) : roundEven n (2 ^ k) = Nat.pow 2 53 ↔ ceiling ≤ n := by
    obtain ⟨half, next, place⟩ : ∃ half : Nat, k = half + 1 ∧ half = 970 := ⟨970, same, rfl⟩
    have below : n < 2 ^ 54 * 2 ^ half := by
      have upper : n < 2 ^ (n.log2 + 1) := Nat.lt_log2_self
      rwa [shift, next, show 52 + (half + 1) + 1 = 54 + half by omega, Nat.pow_add] at upper
    rw [next, Nat.pow_succ, ceiling, ← place]
    exact roundEven_carries_iff (Nat.two_pow_pos half) below
  simp only [exponent, parts, rounded, steps, greatestExponent]
  by_cases carried : roundEven n (2 ^ k) = Nat.pow 2 53
  · simp only [if_pos carried]
    by_cases far : (971 : Int) < (k : Int) + 1
    · refine .inl ⟨?_, by rw [if_pos far]⟩
      by_cases same : k = 971
      · exact (last same).mp carried
      · exact ceiling_le (by omega)
    · refine .inr ⟨lt_ceiling (by omega), ?_⟩
      have value : roundEven n (2 ^ k) * 2 ^ k = Nat.pow 2 52 * 2 ^ (k + 1) := by
        rw [carried]
        change 2 ^ 53 * 2 ^ k = 2 ^ 52 * 2 ^ (k + 1)
        ring
      rw [if_neg far, value]
      exact whole_finite negative (Nat.pow 2 52) (k + 1)
  · simp only [if_neg carried]
    by_cases far : (971 : Int) < (k : Int)
    · exact .inl ⟨ceiling_le (by omega), by rw [if_pos far]⟩
    · refine .inr ⟨?_, by rw [if_neg far]; exact whole_finite negative _ k⟩
      by_cases same : k = 971
      · exact Nat.lt_of_not_le (mt (last same).mpr carried)
      · exact lt_ceiling (by omega)

/-- An integer as a binary number is infinite from the ceiling on, and below it the integer rounded. -/
theorem ofRatio_one (negative : Bool) {n : Nat} (nonzero : n ≠ 0) :
    (ceiling ≤ n ∧ ofRatio negative n 1 = .infinite negative) ∨
      (n < ceiling ∧ Whole (ofRatio negative n 1) (signed negative (rounded n))) := by
  by_cases large : 52 ≤ n.log2
  · exact ofRatio_one_of_large negative nonzero large
  · exact .inr ⟨lt_ceiling (by omega), ofRatio_one_of_small negative nonzero (Nat.lt_of_not_le large)⟩

theorem whole_zero (negative : Bool) (exponent : Int) : Whole (finite negative 0 exponent) (signed negative 0) := by
  simp only [Whole, isIntegral, truncated?, fraction]
  split <;> simp

theorem signed_inj {negative : Bool} {m n : Nat} : signed negative m = signed negative n ↔ m = n := by
  cases negative <;> simp [signed]

theorem natAbs_signed (negative : Bool) (n : Nat) : (signed negative n).natAbs = n := by
  cases negative <;> simp [signed]

theorem signed_natAbs (n : Int) : signed (n < 0) n.natAbs = n := by
  by_cases negative : n < 0
  · have size : (n.natAbs : Int) = -n := Int.ofNat_natAbs_of_nonpos (Int.le_of_lt negative)
    rw [signed, decide_eq_true negative, if_pos rfl, size, Int.neg_neg]
  · have size : (n.natAbs : Int) = n := Int.natAbs_of_nonneg (Int.not_lt.mp negative)
    rw [signed, decide_eq_false negative, if_neg Bool.false_ne_true, size]

def nearest (n : Int) : Int := signed (n < 0) (rounded n.natAbs)

theorem nearest_eq_iff {n : Int} : nearest n = n ↔ Keeps n.natAbs := by
  have same : nearest n = n ↔ nearest n = signed (n < 0) n.natAbs := by rw [signed_natAbs]
  rw [same, nearest, signed_inj, rounded_eq_iff]

theorem ofInt?_eq (n : Int) : (ceiling ≤ n.natAbs ∧ ofInt? n = none) ∨
    (n.natAbs < ceiling ∧ ∃ x, ofInt? n = some x ∧ Whole x (nearest n)) := by
  by_cases zero : n = 0
  · subst zero
    exact .inr ⟨lt_ceiling (by decide), Binary64.zero false, rfl, whole_zero false leastExponent⟩
  · rcases ofRatio_one (n < 0) (Int.natAbs_ne_zero.mpr zero) with ⟨large, infinite⟩ | ⟨small, whole⟩
    · exact .inl ⟨large, by rw [ofInt?, infinite]⟩
    · refine .inr ⟨small, _, ?_, whole⟩
      rw [ofInt?]
      split
      · rename_i infinite
        rw [infinite] at whole
        cases whole.1
      · rfl

/-- An integer read as a binary number that is finite is the integer itself just if 53 bits keep it. -/
theorem truncated?_ofScientific {negative : Bool} {n : Nat} {value : Int}
    (read : (ofScientific negative n 0).truncated? = some value) : value = signed negative n ↔ Keeps n := by
  by_cases zero : n = 0
  · subst zero
    rw [ofScientific, if_pos rfl, Binary64.zero, (whole_zero negative leastExponent).2, Option.some.injEq] at read
    exact iff_of_true read.symm ⟨0, 0, by decide, rfl⟩
  · have ratio : ofScientific negative n 0 = .infinite negative ∨ ofScientific negative n 0 = ofRatio negative n 1 := by
      unfold ofScientific
      rw [if_neg zero]
      split
      · exact .inl rfl
      · rw [if_neg (by omega), if_pos (Int.le_refl 0)]
        simp
    rcases ratio with infinite | finite
    · simp [infinite, truncated?] at read
    · rw [finite] at read
      rcases ofRatio_one negative zero with ⟨_, infinite⟩ | ⟨_, whole⟩
      · simp [infinite, truncated?] at read
      · obtain rfl : signed negative (rounded n) = value := by
          simpa [whole.2] using read
        rw [signed_inj, rounded_eq_iff]

end Binary64

namespace Numeral

open Text

/-! ## Numerals of integers -/

theorem cutAt_of_forall {p : Char → Bool} {cs : List Char} (none : ∀ c ∈ cs, p c = false) :
    cutAt p cs = (cs, Option.none) := by
  induction cs with
  | nil => rfl
  | cons c rest ih =>
    obtain ⟨own, others⟩ := List.forall_mem_cons.mp none
    simp [cutAt, own, ih others]

theorem separatedDigits_head {c : Char} {rest : List Char} {digits : List Nat}
    (read : separatedDigits (c :: rest) = some digits) : (digitValue? c).isSome = true ∧ digits ≠ [] := by
  cases value : digitValue? c with
  | none =>
    unfold separatedDigits at read
    split at read <;> simp_all
  | some first =>
    refine ⟨rfl, ?_⟩
    rintro rfl
    unfold separatedDigits at read
    split at read <;> simp_all [Option.bind_eq_some_iff]

theorem eq_or_of_toLower {c d : Char} (lowered : c.toLower = d) : c = d ∨ c.val + 32 = d.val := by
  unfold Char.toLower at lowered
  split at lowered
  · exact .inr (congrArg Char.val lowered)
  · exact .inl lowered

theorem toLower_ne {c : Char} (digit : (digitValue? c).isSome = true) : c.toLower ≠ 'i' ∧ c.toLower ≠ 'n' := by
  have letters : ['i', 'I', 'n', 'N'].all (fun d => (digitValue? d).isNone) = true := by decide
  simp only [List.all_cons, List.all_nil, Bool.and_true, Bool.and_eq_true, Option.isNone_iff_eq_none] at letters
  constructor
  · intro small
    have own : c = 'i' ∨ c = 'I' := (eq_or_of_toLower small).imp_right fun shifted =>
      Char.ext ((UInt32.add_left_inj 32).mp shifted)
    rcases own with rfl | rfl <;> simp [letters] at digit
  · intro small
    have own : c = 'n' ∨ c = 'N' := (eq_or_of_toLower small).imp_right fun shifted =>
      Char.ext ((UInt32.add_left_inj 32).mp shifted)
    rcases own with rfl | rfl <;> simp [letters] at digit

theorem binary64?_of_separatedDigits {cs : List Char} {digits : List Nat}
    (read : separatedDigits (sign cs).2 = some digits) (plain : ∀ c ∈ (sign cs).2, c ≠ '.' ∧ c ≠ 'e' ∧ c ≠ 'E') :
    binary64? cs = some (Binary64.ofScientific (sign cs).1 (ofDigits digits) 0) := by
  obtain ⟨c, rest, shape⟩ : ∃ c rest, (sign cs).2 = c :: rest := by
    apply List.exists_cons_of_ne_nil
    intro empty
    simp [empty, separatedDigits] at read
  rw [shape] at read plain
  obtain ⟨digit, filled⟩ := separatedDigits_head read
  obtain ⟨noI, noN⟩ := toLower_ne digit
  have noPower : ∀ d ∈ c :: rest, (d == 'e' || d == 'E') = false := fun d member => by simp [plain d member]
  have noPoint : ∀ d ∈ c :: rest, (d == '.') = false := fun d member => by simp [plain d member]
  have words : lowered (c :: rest) ≠ "inf".toList ∧ lowered (c :: rest) ≠ "infinity".toList ∧
      lowered (c :: rest) ≠ "nan".toList := by
    simp [lowered, noI, noN]
  simp only [binary64?, shape, if_neg (not_or.mpr ⟨words.1, words.2.1⟩), if_neg words.2.2]
  simp [decimal?, cutAt_of_forall noPower, cutAt_of_forall noPoint, optionalDigits, read, filled, exponent?]

theorem binary64?_of_integer? {cs : List Char} {n : Int} (read : integer? cs = some n)
    (plain : ∀ c ∈ cs, c ≠ '.' ∧ c ≠ 'e' ∧ c ≠ 'E') :
    ∃ negative magnitude, n = Binary64.signed negative magnitude ∧
      binary64? cs = some (Binary64.ofScientific negative magnitude 0) := by
  have whole : integer? cs = (separatedDigits (sign cs).2).bind fun digits =>
      if digitLimit < digits.length then none else some (Binary64.signed (sign cs).1 (ofDigits digits)) := rfl
  rw [whole] at read
  obtain ⟨digits, spelled, value⟩ := Option.bind_eq_some_iff.mp read
  split at value
  · cases value
  · cases value
    refine ⟨_, _, rfl, binary64?_of_separatedDigits spelled fun c member => plain c ?_⟩
    unfold sign at member
    split at member
    · exact List.mem_cons_of_mem _ member
    · exact List.mem_cons_of_mem _ member
    · exact member

end Numeral

end ProfileConnector
