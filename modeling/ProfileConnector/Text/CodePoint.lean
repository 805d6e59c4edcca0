/-!
Running text. A transform may hold one half of a surrogate pair on its own, because a literal that
spells a character above `U+FFFF` as two four-digit escapes is read as two code points. Text is
therefore a list of code points; ordinary strings are the texts without halves. Characters fall into
classes, by comparison in the ASCII range and by tables of ranges beyond.
-/

namespace ProfileConnector

/-- A code point: a character, or one half of a surrogate pair (`U+D800 + unit`). -/
inductive CodePoint where
  | scalar (c : Char)
  | half (unit : Fin 2048)
  deriving DecidableEq, Repr

abbrev Text := List CodePoint

namespace CodePoint

def halves (c : Char) : Fin 2048 × Fin 2048 :=
  let offset := c.toNat - 0x10000
  (Fin.ofNat 2048 (offset / 1024 % 1024), Fin.ofNat 2048 (1024 + offset % 1024))

def isHighHalf (unit : Fin 2048) : Bool := unit.val < 1024

def joined (high low : Fin 2048) : Char :=
  Char.ofNat (0x10000 + high.val * 1024 + (low.val - 1024))

def satisfies (p : Char → Bool) : CodePoint → Bool
  | .scalar c => p c
  | .half _ => false

end CodePoint

namespace Text

def ofChars (cs : List Char) : Text := cs.map CodePoint.scalar

def ofString (s : String) : Text := ofChars s.toList

/-- The characters of a text: adjacent halves are joined, a half on its own becomes `U+FFFD`. -/
def toChars : Text → List Char
  | [] => []
  | .scalar c :: rest => c :: toChars rest
  | .half high :: .half low :: rest =>
    if CodePoint.isHighHalf high && !CodePoint.isHighHalf low then
      CodePoint.joined high low :: toChars rest
    else
      '\uFFFD' :: toChars (.half low :: rest)
  | .half _ :: rest => '\uFFFD' :: toChars rest

def toString (t : Text) : String := String.ofList t.toChars

def scalars? : Text → Option (List Char)
  | [] => some []
  | .scalar c :: rest => (scalars? rest).map (c :: ·)
  | .half _ :: _ => none

/-- The text with every character above `U+FFFF` taken apart into its halves. -/
def ofSplit : List Char → Text
  | [] => []
  | c :: rest =>
    if c.toNat < 0x10000 then .scalar c :: ofSplit rest
    else .half (CodePoint.halves c).1 :: .half (CodePoint.halves c).2 :: ofSplit rest

theorem scalars?_ofChars (cs : List Char) : (ofChars cs).scalars? = some cs := by
  induction cs with
  | nil => rfl
  | cons c cs ih => simpa [ofChars, scalars?] using ih

theorem toChars_ofChars (cs : List Char) : (ofChars cs).toChars = cs := by
  induction cs with
  | nil => rfl
  | cons c cs ih => simpa [ofChars, toChars] using ih

theorem toString_ofString (s : String) : (ofString s).toString = s := by
  simp [toString, ofString, toChars_ofChars]

theorem ofString_injective : Function.Injective ofString := fun s t same => by
  rw [← toString_ofString s, same, toString_ofString]

theorem ofSplit_eq_ofChars (cs : List Char) (small : ∀ c ∈ cs, c.toNat < 0x10000) :
    ofSplit cs = ofChars cs := by
  induction cs with
  | nil => rfl
  | cons c cs ih =>
    have tail : ∀ d ∈ cs, d.toNat < 0x10000 := fun d member => small d (List.mem_cons_of_mem c member)
    simp [ofSplit, small c List.mem_cons_self, ih tail, ofChars]

/-! ## Classes of characters -/

def inRanges (table : List (Nat × Nat)) (code : Nat) : Bool :=
  table.any fun (low, high) => low ≤ code && code ≤ high

def isAsciiLetter (c : Char) : Bool := ('a' ≤ c && c ≤ 'z') || ('A' ≤ c && c ≤ 'Z')

def isAsciiDigit (c : Char) : Bool := '0' ≤ c && c ≤ '9'

end Text

end ProfileConnector
