import ProfileConnector.Text.Quoted

/-!
What a literal in double quotes denotes in the scripted target. A backslash starts an escape: a mark for
a control, the digits of a code point, or the end of the line, which is left out. In front of anything
else it stands for itself. Lines end with a line feed; literals over several lines and escapes by name
are not read.
-/

namespace ProfileConnector.Literal

def marks : List (Char × Text) := [
  ('\n', []), ('\\', Text.ofString "\\"), ('\'', Text.ofString "'"), ('"', Text.ofString "\""),
  ('a', Text.ofString "\x07"), ('b', Text.ofString "\x08"), ('f', Text.ofString "\x0c"),
  ('n', Text.ofString "\n"), ('r', Text.ofString "\r"), ('t', Text.ofString "\t"), ('v', Text.ofString "\x0b")]

def widths : List (Char × Nat) := [('x', 2), ('u', 4), ('U', 8)]

def hexPoint? (width : Nat) (cs : List Char) : Option CodePoint := do
  let digits := cs.take width
  let value ← if digits.length = width then Text.hexNumber? digits else none
  if value < 0x110000 then some (Text.unitPoint value) else none

def isOctalDigit (c : Char) : Bool := '0' ≤ c && c ≤ '7'

def octalNumber (digits : List Char) : Nat := digits.foldl (fun value c => value * 8 + (c.toNat - '0'.toNat)) 0

/-- What stands behind a backslash: its text, and how many characters belong to it. -/
def escape? : List Char → Option (Text × Nat)
  | [] => none
  | c :: rest =>
    match marks.lookup c, widths.lookup c with
    | some text, _ => some (text, 1)
    | none, some width => (hexPoint? width rest).map fun point => ([point], 1 + width)
    | none, none =>
      let octal := ((c :: rest).take 3).takeWhile isOctalDigit
      if c = 'N' then none
      else if octal.isEmpty then some (Text.ofString "\\", 0)
      else some ([Text.unitPoint (octalNumber octal)], octal.length)

def isForbidden (c : Char) : Bool := c == '\n' || c == '\r' || c == '\x00'

/--
The text from some place in a literal on, behind the characters of an escape that has been read. The
closing quote must end the list.
-/
def inside : Nat → List Char → Option Text
  | _, [] => none
  | skipped + 1, _ :: rest => inside skipped rest
  | 0, c :: rest =>
    if c = '"' then (if rest.isEmpty then some [] else none)
    else if c = '\\' then do
      let (text, width) ← escape? rest
      pure (text ++ (← inside width rest))
    else if isForbidden c then none
    else (inside 0 rest).map (.scalar c :: ·)

def denoted : List Char → Option Text
  | '"' :: rest => inside 0 rest
  | _ => none

example : denoted "\"a\\x41\\101\\qb\\u00e9\\ud83d\\U0001f600\\\n\"".toList =
    some (Text.ofString "aAA\\qbé" ++ .half ⟨61, by decide⟩ :: Text.ofString "😀") := by decide

end ProfileConnector.Literal
