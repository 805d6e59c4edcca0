import ProfileConnector.Number.Numeral
import ProfileConnector.Text.Quoted
import ProfileConnector.Value.Basic

/-!
Reading the text of a value. Besides the standard grammar the words `NaN` and `Infinity` are read as
numbers; of members with one key the last counts; escapes of a high and a low half next to each other
give one character.
-/

namespace ProfileConnector.Value

inductive ReadFault where
  | malformed
  | tooDeep
  deriving DecidableEq, Repr

def nestingLimit : Nat := 986

def isGap (c : Char) : Bool := c == ' ' || c == '\t' || c == '\n' || c == '\r'

def skipGaps (cs : List Char) : List Char := cs.dropWhile isGap

def afterWord (word : String) (cs : List Char) : Option (List Char) :=
  if word.toList.isPrefixOf cs then some (cs.drop word.length) else none

/-- The characters of a literal after its opening quote, and what follows the closing one. -/
def literal : List Char → Option (Text × List Char)
  | [] => none
  | '"' :: rest => some ([], rest)
  | '\\' :: 'u' :: a :: b :: c :: d :: rest => do
    let unit ← Text.hexNumber? [a, b, c, d]
    let (tail, after) ← literal rest
    match Text.unitPoint unit, tail with
    | .half high, .half low :: others =>
      if CodePoint.isHighHalf high && !CodePoint.isHighHalf low then
        pure (.scalar (CodePoint.joined high low) :: others, after)
      else
        pure (.half high :: tail, after)
    | point, _ => pure (point :: tail, after)
  | '\\' :: escape :: rest => do
    let c ← match escape with
      | '"' => some '"'
      | '\\' => some '\\'
      | '/' => some '/'
      | 'b' => some '\x08'
      | 'f' => some '\x0c'
      | 'n' => some '\n'
      | 'r' => some '\r'
      | 't' => some '\t'
      | _ => none
    let (tail, after) ← literal rest
    pure (.scalar c :: tail, after)
  | c :: rest => do
    if c.toNat < 0x20 then none
    else
      let (tail, after) ← literal rest
      pure (.scalar c :: tail, after)

/-- The digits of a whole number: a zero alone, or digits without a leading zero. -/
def wholeDigits : List Char → Option (List Char × List Char)
  | '0' :: rest => some (['0'], rest)
  | cs =>
    let digits := cs.takeWhile Text.isAsciiDigit
    if digits.isEmpty then none else some (digits, cs.dropWhile Text.isAsciiDigit)

def fractionDigits : List Char → List Char × List Char
  | '.' :: rest =>
    let digits := rest.takeWhile Text.isAsciiDigit
    if digits.isEmpty then ([], '.' :: rest) else ('.' :: digits, rest.dropWhile Text.isAsciiDigit)
  | cs => ([], cs)

def exponentDigits (cs : List Char) : List Char × List Char :=
  match cs with
  | mark :: rest =>
    if mark == 'e' || mark == 'E' then
      let (sign, digits) := match rest with
        | '+' :: more => (['+'], more)
        | '-' :: more => (['-'], more)
        | more => ([], more)
      let shown := digits.takeWhile Text.isAsciiDigit
      if shown.isEmpty then ([], cs) else (mark :: sign ++ shown, digits.dropWhile Text.isAsciiDigit)
    else ([], cs)
  | [] => ([], [])

def number (cs : List Char) : Option (Value × List Char) := do
  let (sign, rest) := match cs with
    | '-' :: more => (['-'], more)
    | more => ([], more)
  let (whole, rest) ← wholeDigits rest
  let (part, rest) := fractionDigits rest
  let (power, rest) := exponentDigits rest
  if part.isEmpty && power.isEmpty then
    pure (.int (← Numeral.integer? (sign ++ whole)), rest)
  else
    pure (.float (← Numeral.binary64? (sign ++ whole ++ part ++ power)), rest)

def constants : List (String × Value) := [
  ("null", .null), ("true", .bool true), ("false", .bool false), ("NaN", .float .nan),
  ("Infinity", .float (.infinite false)), ("-Infinity", .float (.infinite true))]

def constant (cs : List Char) : Option (Value × List Char) :=
  constants.findSome? fun (word, value) => (afterWord word cs).map (value, ·)

mutual

/-- A value at the start of the list; `depth` is how much deeper lists and records may be nested. -/
def read : Nat → Nat → List Char → Except ReadFault (Value × List Char)
  | 0, _, _ => .error .malformed
  | fuel + 1, depth, cs =>
    match cs with
    | '"' :: rest =>
      match literal rest with
      | some (t, after) => .ok (.text t, after)
      | none => .error .malformed
    | '[' :: rest =>
      match depth with
      | 0 => .error .tooDeep
      | depth + 1 =>
        match skipGaps rest with
        | ']' :: after => .ok (.list [], after)
        | first => do
          let (items, after) ← readItems fuel depth first
          pure (.list items, after)
    | '\x7b' :: rest =>
      match depth with
      | 0 => .error .tooDeep
      | depth + 1 =>
        match skipGaps rest with
        | '\x7d' :: after => .ok (.record [], after)
        | first => do
          let (members, after) ← readMembers fuel depth first
          pure (.record (KeyedList.ofPairs members), after)
    | _ =>
      match constant cs <|> number cs with
      | some found => .ok found
      | none => .error .malformed

def readItems : Nat → Nat → List Char → Except ReadFault (List Value × List Char)
  | 0, _, _ => .error .malformed
  | fuel + 1, depth, cs => do
    let (item, after) ← read fuel depth cs
    match skipGaps after with
    | ']' :: rest => pure ([item], rest)
    | ',' :: rest =>
      let (items, after) ← readItems fuel depth (skipGaps rest)
      pure (item :: items, after)
    | _ => .error .malformed

def readMembers : Nat → Nat → List Char → Except ReadFault (List (Text × Value) × List Char)
  | 0, _, _ => .error .malformed
  | fuel + 1, depth, cs => do
    match cs with
    | '"' :: rest =>
      match literal rest with
      | some (key, after) =>
        match skipGaps after with
        | ':' :: rest =>
          let (value, after) ← read fuel depth (skipGaps rest)
          match skipGaps after with
          | '\x7d' :: rest => pure ([(key, value)], rest)
          | ',' :: rest =>
            let (members, after) ← readMembers fuel depth (skipGaps rest)
            pure ((key, value) :: members, after)
          | _ => .error .malformed
        | _ => .error .malformed
      | none => .error .malformed
    | _ => .error .malformed

end

def ofChars? (cs : List Char) : Except ReadFault Value := do
  let (value, after) ← read (2 * cs.length + 1) nestingLimit (skipGaps cs)
  if (skipGaps after).isEmpty then pure value else .error .malformed

end ProfileConnector.Value
