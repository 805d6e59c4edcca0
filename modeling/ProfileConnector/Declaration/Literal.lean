import ProfileConnector.Identifier
import ProfileConnector.Script.Literal

/-!
What literals in double quotes and in backticks denote in TypeScript. A text is a sequence of units there, in
which a character above `U+FFFF` stands as its two halves. A backslash starts an escape: a mark for a control,
the digits of a code point, or the end of a line, which is left out; in front of anything else it is left out
itself. A literal in backticks goes on over the ends of lines, denotes each as a line feed, and has names in
substitutions; substitutions of other expressions are not read.
-/

namespace ProfileConnector.TypeScript.Literal

open Text (literalText)

def marks : List (Char × Char) := [
  ('b', '\x08'), ('t', '\t'), ('n', '\n'), ('v', '\x0b'), ('f', '\x0c'), ('r', '\r')]

def lineSeparators : List Char := ['\n', '\u2028', '\u2029']

/-- A line feed behind a carriage return ends the same line. -/
def feedLength (rest : List Char) : Nat := if rest.head? = some '\n' then 1 else 0

def pointUnits (value : Nat) : Text :=
  if value < 0x10000 then [Text.unitPoint value] else Text.ofSplit [Char.ofNat value]

/-- A code point whose digits end with a brace, and how many characters these and the brace are. -/
def bracedPoint? (cs : List Char) : Option (Text × Nat) := do
  let digits := cs.takeWhile (· != '\x7d')
  let value ← if digits.isEmpty || digits.length = cs.length then none else Text.hexNumber? digits
  if value < 0x110000 then some (pointUnits value, digits.length + 1) else none

/-- What stands behind a backslash: its text, and how many characters belong to it. -/
def escape? : List Char → Option (Text × Nat)
  | [] => none
  | c :: rest =>
    match marks.lookup c with
    | some mark => some ([.scalar mark], 1)
    | none =>
      if c = 'x' then (ProfileConnector.Literal.hexPoint? 2 rest).map fun point => ([point], 3)
      else if c = 'u' then
        if rest.head? = some '\x7b' then (bracedPoint? rest.tail).map fun (text, width) => (text, width + 2)
        else (ProfileConnector.Literal.hexPoint? 4 rest).map fun point => ([point], 5)
      else if Text.isAsciiDigit c then
        if c = '0' && !rest.head?.any Text.isAsciiDigit then some ([.scalar '\x00'], 1) else none
      else if c = '\r' then some ([], feedLength rest + 1)
      else if lineSeparators.contains c then some ([], 1)
      else some (Text.ofSplit [c], 1)

/-- The value of a name that ends with a brace, and how many characters the name and the brace are. -/
def substitution? (scope : List (String × Text)) (cs : List Char) : Option (Text × Nat) :=
  let name := cs.takeWhile Identifier.isPart
  if (cs.drop name.length).head? = some '\x7d' then
    (scope.lookup (String.ofList name)).map fun text => (text, name.length + 1)
  else none

/-- What a character in double quotes stands for, and how many of the characters behind it belong to it. -/
def quotedUnit (c : Char) (rest : List Char) : Option (Text × Nat) :=
  if c = '\\' then escape? rest
  else if c = '\n' ∨ c = '\r' then none
  else some (Text.ofSplit [c], 0)

def templateUnit (scope : List (String × Text)) (c : Char) (rest : List Char) : Option (Text × Nat) :=
  if c = '\\' then escape? rest
  else if c = '\r' then some ([.scalar '\n'], feedLength rest)
  else if c = '$' ∧ rest.head? = some '\x7b' then
    (substitution? scope rest.tail).map fun (text, width) => (text, width + 1)
  else some (Text.ofSplit [c], 0)

/--
The text from some place in a literal on, behind the characters that belong to one that has been read. The
closing character must end the list.
-/
def enclosed (close : Char) (unit : Char → List Char → Option (Text × Nat)) : Nat → List Char → Option Text
  | _, [] => none
  | skipped + 1, _ :: rest => enclosed close unit skipped rest
  | 0, c :: rest =>
    if c = close then (if rest.isEmpty then some [] else none)
    else do
      let (text, width) ← unit c rest
      pure (text ++ (← enclosed close unit width rest))

def denotedString : List Char → Option Text
  | '"' :: rest => enclosed '"' quotedUnit 0 rest
  | _ => none

/-- The text of a literal in backticks where the names in scope have the given values. -/
def denotedTemplate (scope : List (String × Text)) : List Char → Option Text
  | '\x60' :: rest => enclosed '\x60' (templateUnit scope) 0 rest
  | _ => none

example : denotedString "\"a\\x41\\u00e9\\u\x7b1f600\x7d\\q\\\n\"".toList = some (literalText "aAé😀q") := by decide
example : denotedTemplate [("path", literalText "p")] "`$\x7bpath\x7d.a\r\n$b`".toList =
    some (literalText "p.a\n$b") := by decide

end ProfileConnector.TypeScript.Literal
