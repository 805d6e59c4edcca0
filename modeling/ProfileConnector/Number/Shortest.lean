import ProfileConnector.Number.Binary64

/-!
The decimal text of a binary number: the fewest significant digits that read back as the same
number, and of those the nearest. Positional where the first digit stands for at least `10 ^ -4` and
less than `10 ^ 16`, otherwise with an exponent of at least two digits.
-/

namespace ProfileConnector.Binary64

def leadingPower (num den : Nat) : Int :=
  if den ≤ num then (digitCount (num / den) : Int) - 1
  else -(digitCount ((den + num - 1) / num - 1) : Int)

def withoutZeros : Nat → Nat → Int → Nat × Int
  | 0, digits, exponent => (digits, exponent)
  | fuel + 1, digits, exponent =>
    if digits % 10 = 0 then withoutZeros fuel (digits / 10) (exponent + 1) else (digits, exponent)

/-- The neighbours of a fraction among the multiples of `10 ^ power`, as numbers of such multiples. -/
def neighbours (num den : Nat) (power : Int) : Nat × Nat :=
  let (top, bottom) :=
    if 0 ≤ power then (num, den * Nat.pow 10 power.toNat) else (num * Nat.pow 10 (-power).toNat, den)
  (top / bottom, top / bottom + 1)

/-- The nearest of the two neighbours on the grid `10 ^ power`, a tie going to the even one. -/
def nearer (num den : Nat) (power : Int) (low high : Nat) : Nat :=
  let (top, bottom) :=
    if 0 ≤ power then (num, den * Nat.pow 10 power.toNat) else (num * Nat.pow 10 (-power).toNat, den)
  let twice := 2 * (top % bottom)
  if twice < bottom ∨ twice = bottom ∧ low % 2 = 0 then low else high

/-- A decimal of `count` significant digits that reads back as the number, if there is one. -/
def decimalOf? (mantissa : Nat) (exponent : Int) (count : Nat) : Option (Nat × Int) :=
  let (num, den) := fraction mantissa exponent
  let power := leadingPower num den - count + 1
  let (low, high) := neighbours num den power
  let readsBack (digits : Nat) := ofScientific false digits power == .finite false mantissa exponent
  match readsBack low, readsBack high with
  | true, true => some (nearer num den power low high, power)
  | true, false => some (low, power)
  | false, true => some (high, power)
  | false, false => none

/-- The shortest decimal that reads back: digits and the power of ten of the last one. -/
def shortest (mantissa : Nat) (exponent : Int) : Nat × Int :=
  match (List.range 17).findSome? fun k => decimalOf? mantissa exponent (k + 1) with
  | some (digits, power) => withoutZeros 20 digits power
  | none => (mantissa, 0)

def positional (digits : List Char) (point : Int) : List Char :=
  if point ≤ 0 then
    '0' :: '.' :: (List.replicate (-point).toNat '0' ++ digits)
  else if digits.length ≤ point.toNat then
    digits ++ List.replicate (point.toNat - digits.length) '0' ++ ['.', '0']
  else
    digits.take point.toNat ++ '.' :: digits.drop point.toNat

def exponential (digits : List Char) (power : Int) : List Char :=
  let mantissa := match digits with
    | first :: second :: rest => first :: '.' :: second :: rest
    | short => short
  let size := (Nat.repr power.natAbs).toList
  mantissa ++ 'e' :: (if power < 0 then '-' else '+') :: (if size.length < 2 then '0' :: size else size)

def magnitudeChars (mantissa : Nat) (exponent : Int) : List Char :=
  if mantissa = 0 then ['0', '.', '0']
  else
    let (digits, power) := shortest mantissa exponent
    let shown := (Nat.repr digits).toList
    let leading := power + shown.length - 1
    if -4 ≤ leading ∧ leading < 16 then positional shown (leading + 1) else exponential shown leading

def textWith (nan infinity : String) : Binary64 → String
  | .nan => nan
  | .infinite negative => (if negative then "-" else "") ++ infinity
  | .finite negative mantissa exponent =>
    (if negative then "-" else "") ++ String.ofList (magnitudeChars mantissa exponent)

def text (x : Binary64) : String := textWith "nan" "inf" x

def integralText (x : Binary64) : String :=
  if x.isIntegral then
    match x.truncated? with
    | some n => toString n
    | none => x.text
  else x.text

example : (ofScientific false 1 (-1)).text = "0.1" := by decide
example : (ofScientific true 15 25).text = "-1.5e+26" := by decide
example : (ofScientific false 1 23).text = "1e+23" := by decide

end ProfileConnector.Binary64
