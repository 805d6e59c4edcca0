import ProfileConnector.Text.CodePoint

/-!
Blank characters: the bidirectional classes white space, segment and paragraph separator together
with the separators of general category Z. Trimming removes them at both ends.
-/

namespace ProfileConnector.Text

def blankRanges : List (Nat × Nat) := [
  (0x9, 0xD), (0x1C, 0x20), (0x85, 0x85), (0xA0, 0xA0), (0x1680, 0x1680), (0x2000, 0x200A),
  (0x2028, 0x2029), (0x202F, 0x202F), (0x205F, 0x205F), (0x3000, 0x3000)]

def isBlank (c : Char) : Bool := inRanges blankRanges c.toNat

example (c : Char) (white : c.isWhitespace) : isBlank c := by
  simp only [Char.isWhitespace, Bool.or_eq_true, decide_eq_true_eq] at white
  obtain ((rfl | rfl) | rfl) | rfl := white <;> rfl

def isBlankPoint : CodePoint → Bool := CodePoint.satisfies isBlank

def trimBy {α : Type} (p : α → Bool) (xs : List α) : List α :=
  ((xs.dropWhile p).reverse.dropWhile p).reverse

def trimChars (cs : List Char) : List Char := trimBy isBlank cs

def trimString (s : String) : String := String.ofList (trimChars s.toList)

def trim (t : Text) : Text := trimBy isBlankPoint t

end ProfileConnector.Text
