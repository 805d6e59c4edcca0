import ProfileConnector.Text.CodePoint

/-!
How programs are written. Literals stand in double quotes and in printable ASCII: everything outside
`U+0020` to `U+007E` is written as a four-digit escape, a character above `U+FFFF` as the escapes of its
two halves; the quote, the backslash and five controls have short escapes. Lines, indentation, lists and
the names of slots are laid out alike in all targets.
-/

namespace ProfileConnector

namespace Text

def hexDigit (n : Nat) : Char :=
  if n < 10 then Char.ofNat (48 + n) else Char.ofNat (87 + n)

def hexDigits : Nat → Nat → List Char
  | 0, _ => []
  | width + 1, n => hexDigits width (n / 16) ++ [hexDigit (n % 16)]

def unitEscape (unit : Nat) : List Char := '\\' :: 'u' :: hexDigits 4 unit

def escapeChar (c : Char) : List Char :=
  if c = '"' then ['\\', '"']
  else if c = '\\' then ['\\', '\\']
  else if c = '\n' then ['\\', 'n']
  else if c = '\r' then ['\\', 'r']
  else if c = '\t' then ['\\', 't']
  else if c = '\x08' then ['\\', 'b']
  else if c = '\x0c' then ['\\', 'f']
  else if 0x20 ≤ c.toNat ∧ c.toNat ≤ 0x7E then [c]
  else if c.toNat < 0x10000 then unitEscape c.toNat
  else unitEscape (0xD800 + (CodePoint.halves c).1.val) ++ unitEscape (0xD800 + (CodePoint.halves c).2.val)

def escapePoint : CodePoint → List Char
  | .scalar c => escapeChar c
  | .half unit => unitEscape (0xD800 + unit.val)

def quoteChars (t : Text) : List Char := '"' :: (t.flatMap escapePoint ++ ['"'])

def quoteText (t : Text) : String := String.ofList (quoteChars t)

def quote (s : String) : String := quoteText (ofString s)

/-- What the literal of a string denotes where every escape is a unit of its own. -/
def literalText (s : String) : Text := ofSplit s.toList

def hexValue? (c : Char) : Option Nat :=
  if '0' ≤ c ∧ c ≤ '9' then some (c.toNat - 48)
  else if 'a' ≤ c ∧ c ≤ 'f' then some (c.toNat - 87)
  else if 'A' ≤ c ∧ c ≤ 'F' then some (c.toNat - 55)
  else none

def hexNumber? (digits : List Char) : Option Nat :=
  digits.foldl (fun value c => do pure ((← value) * 16 + (← hexValue? c))) (some 0)

def unitPoint (unit : Nat) : CodePoint :=
  if 0xD800 ≤ unit ∧ unit < 0xE000 then .half ⟨(unit - 0xD800) % 2048, Nat.mod_lt _ (by decide)⟩
  else .scalar (Char.ofNat unit)

example : quote "a\"é😀\n" = "\"a\\\"\\u00e9\\ud83d\\ude00\\n\"" := by decide

end Text

namespace Layout

def indent (unit : String) (level : Nat) : String := String.join (List.replicate level unit)

def lines (parts : List String) : String := "\n".intercalate parts

def items (parts : List String) : String := ", ".intercalate parts

def list (parts : List String) : String := "[" ++ items parts ++ "]"

def slotName (slot : Nat) : String := "field" ++ toString slot

end Layout

end ProfileConnector
