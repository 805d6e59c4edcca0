/-!
Binary floating-point numbers of 64 bits as exact data: a sign, a mantissa below `2 ^ 53` and an
exponent. A fraction is rounded to the nearest such number, a tie to the even mantissa; numbers that
round beyond the largest one are infinite.
-/

namespace ProfileConnector

inductive Binary64 where
  | nan
  | infinite (negative : Bool)
  /-- The number `mantissa * 2 ^ exponent`, with its sign. -/
  | finite (negative : Bool) (mantissa : Nat) (exponent : Int)
  deriving DecidableEq, Repr

namespace Binary64

def leastExponent : Int := -1074

def greatestExponent : Int := 971

def zero (negative : Bool) : Binary64 := .finite negative 0 leastExponent

def scaled (num den : Nat) (exponent : Int) : Nat × Nat :=
  if 0 ≤ exponent then (num, den * Nat.pow 2 exponent.toNat) else (num * Nat.pow 2 (-exponent).toNat, den)

/-- The nearest integer to a fraction, a tie going to the even one. -/
def roundEven (num den : Nat) : Nat :=
  let quotient := num / den
  let twice := 2 * (num % den)
  if twice < den ∨ twice = den ∧ quotient % 2 = 0 then quotient else quotient + 1

/-- The exponent that gives the fraction a mantissa of 53 bits, if the exponent may be that small. -/
def exponentFor (num den : Nat) : Int :=
  let guess : Int := (num.log2 : Int) - den.log2 - 52
  let (top, bottom) := scaled num den guess
  max (if top / bottom < Nat.pow 2 52 then guess - 1 else guess) leastExponent

def ofRatio (negative : Bool) (num den : Nat) : Binary64 :=
  if num = 0 then zero negative
  else
    let exponent := exponentFor num den
    let (top, bottom) := scaled num den exponent
    let mantissa := roundEven top bottom
    let (mantissa, exponent) :=
      if mantissa = Nat.pow 2 53 then (Nat.pow 2 52, exponent + 1) else (mantissa, exponent)
    if greatestExponent < exponent then .infinite negative else .finite negative mantissa exponent

def digitCount (n : Nat) : Nat := (Nat.repr n).length

def ofScientific (negative : Bool) (digits : Nat) (exponent : Int) : Binary64 :=
  if digits = 0 then zero negative
  else if 310 < exponent + digitCount digits then .infinite negative
  else if exponent + digitCount digits < -330 then zero negative
  else if 0 ≤ exponent then ofRatio negative (digits * Nat.pow 10 exponent.toNat) 1
  else ofRatio negative digits (Nat.pow 10 (-exponent).toNat)

def ofInt? (n : Int) : Option Binary64 :=
  match ofRatio (n < 0) n.natAbs 1 with
  | .infinite _ => none
  | x => some x

def fraction (mantissa : Nat) (exponent : Int) : Nat × Nat :=
  if 0 ≤ exponent then (mantissa * Nat.pow 2 exponent.toNat, 1) else (mantissa, Nat.pow 2 (-exponent).toNat)

def isIntegral : Binary64 → Bool
  | .finite _ mantissa exponent =>
    let (num, den) := fraction mantissa exponent
    num % den == 0
  | _ => false

def signed (negative : Bool) (n : Nat) : Int := if negative then -(n : Int) else n

def truncated? : Binary64 → Option Int
  | .finite negative mantissa exponent =>
    let (num, den) := fraction mantissa exponent
    some (signed negative (num / den))
  | _ => none

def isZero : Binary64 → Bool
  | .finite _ mantissa _ => mantissa == 0
  | _ => false

end Binary64

/-- A place on the number line with its two ends. -/
inductive Magnitude where
  | lowest
  | ratio (num : Int) (den : Nat)
  | highest
  deriving DecidableEq, Repr

namespace Magnitude

def ofInt (n : Int) : Magnitude := .ratio n 1

def lt : Magnitude → Magnitude → Bool
  | .lowest, .lowest => false
  | .lowest, _ => true
  | _, .lowest => false
  | .highest, _ => false
  | .ratio _ _, .highest => true
  | .ratio a b, .ratio c d => a * d < c * b

end Magnitude

def Binary64.magnitude? : Binary64 → Option Magnitude
  | .nan => none
  | .infinite negative => some (if negative then .lowest else .highest)
  | .finite negative mantissa exponent =>
    let (num, den) := Binary64.fraction mantissa exponent
    some (.ratio (Binary64.signed negative num) den)

example : Binary64.ofInt? 9007199254740993 = Binary64.ofInt? 9007199254740992 := by decide
example : (Binary64.ofScientific false 1 400) = .infinite false := by decide

end ProfileConnector
