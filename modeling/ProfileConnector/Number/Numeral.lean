import ProfileConnector.Number.Binary64
import ProfileConnector.Text.Digit

/-!
Reading numbers. An integer is a sign and digits; a number may also have a point and an exponent, or
be one of the words for infinity and not-a-number. Digits may be of any script and single
underscores may stand between them.
-/

namespace ProfileConnector.Numeral

def sign : List Char → Bool × List Char
  | '-' :: rest => (true, rest)
  | '+' :: rest => (false, rest)
  | cs => (false, cs)

/-- The values of digits that may be separated by single underscores. -/
def separatedDigits : List Char → Option (List Nat)
  | [] => none
  | [c] => (Text.digitValue? c).map ([·])
  | c :: '_' :: rest => do pure ((← Text.digitValue? c) :: (← separatedDigits rest))
  | c :: rest => do pure ((← Text.digitValue? c) :: (← separatedDigits rest))

def ofDigits (digits : List Nat) : Nat := digits.foldl (fun value d => value * 10 + d) 0

def digitLimit : Nat := 4300

def integer? (cs : List Char) : Option Int := do
  let (negative, rest) := sign cs
  let digits ← separatedDigits rest
  if digitLimit < digits.length then none else some (Binary64.signed negative (ofDigits digits))

def optionalDigits (cs : List Char) : Option (List Nat) :=
  if cs.isEmpty then some [] else separatedDigits cs

/-- The part of the list before the first character that satisfies `p`, and what follows it. -/
def cutAt (p : Char → Bool) : List Char → List Char × Option (List Char)
  | [] => ([], none)
  | c :: rest =>
    if p c then ([], some rest)
    else
      let (front, back) := cutAt p rest
      (c :: front, back)

def exponent? : Option (List Char) → Option Int
  | none => some 0
  | some cs => do
    let (negative, rest) := sign cs
    pure (Binary64.signed negative (ofDigits (← separatedDigits rest)))

def lowered (cs : List Char) : List Char := cs.map Char.toLower

/-- The number nearest to what an unsigned decimal numeral spells. -/
def decimal? (negative : Bool) (cs : List Char) : Option Binary64 := do
  let (mantissa, power) := cutAt (fun c => c == 'e' || c == 'E') cs
  let (whole, part) := cutAt (· == '.') mantissa
  let wholeDigits ← optionalDigits whole
  let partDigits ← optionalDigits (part.getD [])
  if wholeDigits.isEmpty && partDigits.isEmpty then none
  else
    let exponent ← exponent? power
    pure (Binary64.ofScientific negative (ofDigits (wholeDigits ++ partDigits))
      (exponent - partDigits.length))

def binary64? (cs : List Char) : Option Binary64 :=
  let (negative, rest) := sign cs
  if lowered rest = "inf".toList ∨ lowered rest = "infinity".toList then some (.infinite negative)
  else if lowered rest = "nan".toList then some .nan
  else decimal? negative rest

example : integer? "-1_0".toList = some (-10) ∧ integer? "1__0".toList = none := by decide
example : integer? "٣".toList = some 3 ∧ integer? "²".toList = none := by decide
example : binary64? "1_0.5e1".toList = some (Binary64.ofScientific false 105 0) := by decide

end ProfileConnector.Numeral
