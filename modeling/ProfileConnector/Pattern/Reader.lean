import ProfileConnector.Pattern.Basic
import ProfileConnector.Text.Quoted

/-!
Written patterns. A written pattern falls apart into marks (single characters and sets, anchors,
counts, bars and parentheses), which are put together from left to right with the groups that are
still open on a stack. References to groups, flags, conditions on what comes before and
counts that give nothing back are not part of the notation.
-/

namespace ProfileConnector.Pattern

inductive ReadFault where
  | malformed
  | countOverflow
  deriving DecidableEq, Repr

inductive GroupKind where
  | plain
  | ahead (negated : Bool)
  deriving DecidableEq, Repr

inductive Mark where
  | one (set : PointSet)
  | anchor (edge : Anchor)
  | count (least : Nat) (most : Option Nat)
  | bar
  | opening (kind : GroupKind) (name : Option String)
  | close
  | comment
  deriving DecidableEq, Repr

/-! ## Escapes -/

def point (code : Nat) : SetItem := .range code code

def single (c : Char) : PointSet := ⟨false, [point c.toNat]⟩

def kind? : Char → Option SetItem
  | 'd' => some (.kind false .digit)
  | 'D' => some (.kind true .digit)
  | 'w' => some (.kind false .word)
  | 'W' => some (.kind true .word)
  | 's' => some (.kind false .blank)
  | 'S' => some (.kind true .blank)
  | _ => none

def anchor? : Char → Option Anchor
  | 'A' => some .first
  | 'Z' => some .last
  | 'b' => some (.wordEdge false)
  | 'B' => some (.wordEdge true)
  | _ => none

def control? : Char → Option Nat
  | 'a' => some 7
  | 'f' => some 12
  | 'n' => some 10
  | 'r' => some 13
  | 't' => some 9
  | 'v' => some 11
  | _ => none

def isOctal (c : Char) : Bool := '0' ≤ c && c ≤ '7'

def octal (digits : List Char) : Nat := digits.foldl (fun value c => value * 8 + (c.toNat - 48)) 0

def decimal (digits : List Char) : Nat := digits.foldl (fun value c => value * 10 + (c.toNat - 48)) 0

def hexCode (width : Nat) (cs : List Char) : Except ReadFault Nat :=
  let digits := cs.take width
  match if digits.length = width then Text.hexNumber? digits else none with
  | some code => if code < 0x110000 then .ok code else .error .malformed
  | none => .error .malformed

/-- A code and the number of characters that spell it, from the character behind the backslash on. -/
def escapedCode (isInSet : Bool) (c : Char) (rest : List Char) : Except ReadFault (Nat × Nat) :=
  match control? c with
  | some code => .ok (code, 1)
  | none =>
    if c = 'x' then (hexCode 2 rest).map (·, 3)
    else if c = 'u' then (hexCode 4 rest).map (·, 5)
    else if c = 'U' then (hexCode 8 rest).map (·, 9)
    else if Text.isAsciiDigit c then
      let further := (rest.take 2).takeWhile isOctal
      let code := octal (c :: further)
      if isOctal c && (isInSet || c = '0' || further.length = 2) && code < 256 then
        .ok (code, 1 + further.length)
      else .error .malformed
    else if Text.isAsciiLetter c then .error .malformed
    else .ok (c.toNat, 1)

/-! ## Sets -/

def setItem (c : Char) (rest : List Char) : Except ReadFault (SetItem × Nat) :=
  if c ≠ '\\' then .ok (point c.toNat, 1)
  else match rest with
    | [] => .error .malformed
    | 'b' :: _ => .ok (point 8, 2)
    | e :: rest =>
      match kind? e with
      | some item => .ok (item, 2)
      | none => (escapedCode true e rest).map fun (code, length) => (point code, length + 1)

def rangeItem : SetItem → SetItem → Except ReadFault SetItem
  | .range low _, .range high _ => if high < low then .error .malformed else .ok (.range low high)
  | _, _ => .error .malformed

inductive SetState where
  /-- No item waits for a dash. -/
  | settled
  | single (item : SetItem)
  /-- An item and a dash have been read. -/
  | dashed (item : SetItem)
  deriving DecidableEq, Repr

/-- The items of a set and the number of characters up to its closing bracket. -/
def setItems : Nat → SetState → List SetItem → Nat → List Char → Except ReadFault (List SetItem × Nat)
  | _, _, _, _, [] => .error .malformed
  | skip + 1, state, items, length, _ :: rest => setItems skip state items (length + 1) rest
  | 0, state, items, length, c :: rest =>
    match state with
    | .dashed item =>
      if c = ']' then .ok (items ++ [item, point '-'.toNat], length + 1)
      else do
        let (other, taken) ← setItem c rest
        let range ← rangeItem item other
        setItems (taken - 1) .settled (items ++ [range]) (length + 1) rest
    | .single item =>
      if c = '-' then setItems 0 (.dashed item) items (length + 1) rest
      else if c = ']' then .ok (items ++ [item], length + 1)
      else do
        let (next, taken) ← setItem c rest
        setItems (taken - 1) (.single next) (items ++ [item]) (length + 1) rest
    | .settled =>
      if c = ']' && !items.isEmpty then .ok (items, length + 1)
      else do
        let (next, taken) ← setItem c rest
        setItems (taken - 1) (.single next) items (length + 1) rest

def readSet (cs : List Char) : Except ReadFault (PointSet × Nat) :=
  match cs with
  | '^' :: rest => (setItems 0 .settled [] 0 rest).map fun (items, length) => (⟨true, items⟩, length + 1)
  | _ => (setItems 0 .settled [] 0 cs).map fun (items, length) => (⟨false, items⟩, length)

/-! ## Marks -/

def countLimit : Nat := 4294967295

/-- Two bounds in braces, from behind the opening brace on; braces that hold no bounds are ordinary text. -/
def bounds? (cs : List Char) : Option (List Char × List Char × Nat) :=
  let low := cs.takeWhile Text.isAsciiDigit
  match cs.drop low.length with
  | '\x7d' :: _ => if low.isEmpty then none else some (low, low, low.length + 1)
  | ',' :: rest =>
    let high := rest.takeWhile Text.isAsciiDigit
    match rest.drop high.length with
    | '\x7d' :: _ => some (low, high, low.length + high.length + 2)
    | _ => none
  | _ => none

/-- A mark behind which a question mark changes nothing; a plus would forbid to give anything back. -/
def countMark (mark : Mark) (taken : Nat) (rest : List Char) : Except ReadFault (Mark × Nat) :=
  match rest with
  | '?' :: _ => .ok (mark, taken + 1)
  | '+' :: _ => .error .malformed
  | _ => .ok (mark, taken)

def boundsMark (cs : List Char) : Except ReadFault (Mark × Nat) :=
  match bounds? cs with
  | none => .ok (.one (single '\x7b'), 1)
  | some (low, high, length) =>
    let least := decimal low
    let most := if high.isEmpty then none else some (decimal high)
    if countLimit ≤ least || most.any (countLimit ≤ ·) then .error .countOverflow
    else if most.any (· < least) then .error .malformed
    else countMark (.count least most) (length + 1) (cs.drop length)

def isNameStart (c : Char) : Bool := Text.isWord c && !Text.isDigitForm c

def groupMark (cs : List Char) : Except ReadFault (Mark × Nat) :=
  match cs with
  | '?' :: ':' :: _ => .ok (.opening .plain none, 3)
  | '?' :: '=' :: _ => .ok (.opening (.ahead false) none, 3)
  | '?' :: '!' :: _ => .ok (.opening (.ahead true) none, 3)
  | '?' :: '#' :: rest =>
    if rest.contains ')' then .ok (.comment, 4 + (rest.takeWhile (· != ')')).length) else .error .malformed
  | '?' :: 'P' :: '<' :: rest =>
    let name := rest.takeWhile (· != '>')
    if rest.contains '>' && name.all Text.isWord && (name.head?).any isNameStart then
      .ok (.opening .plain (some (String.ofList name)), 5 + name.length)
    else .error .malformed
  | '?' :: _ => .error .malformed
  | _ => .ok (.opening .plain none, 1)

def escapeMark (cs : List Char) : Except ReadFault (Mark × Nat) :=
  match cs with
  | [] => .error .malformed
  | c :: rest =>
    match kind? c, anchor? c with
    | some item, _ => .ok (.one ⟨false, [item]⟩, 2)
    | none, some edge => .ok (.anchor edge, 2)
    | none, none => (escapedCode false c rest).map fun (code, length) => (.one ⟨false, [point code]⟩, length + 1)

/-- The mark at the head of a list and the number of characters that it takes up. -/
def mark (c : Char) (rest : List Char) : Except ReadFault (Mark × Nat) :=
  match c with
  | '\\' => escapeMark rest
  | '.' => .ok (.one ⟨true, [point '\n'.toNat]⟩, 1)
  | '[' => (readSet rest).map fun (set, length) => (.one set, length + 1)
  | '^' => .ok (.anchor .first, 1)
  | '$' => .ok (.anchor .lastLine, 1)
  | '|' => .ok (.bar, 1)
  | '(' => groupMark rest
  | ')' => .ok (.close, 1)
  | '*' => countMark (.count 0 none) 1 rest
  | '+' => countMark (.count 1 none) 1 rest
  | '?' => countMark (.count 0 (some 1)) 1 rest
  | '\x7b' => boundsMark rest
  | c => .ok (.one (single c), 1)

/-- The marks of a written pattern; characters that a mark has taken up are skipped. -/
def marks : Nat → List Char → Except ReadFault (List Mark)
  | _, [] => .ok []
  | skip + 1, _ :: rest => marks skip rest
  | 0, c :: rest => do
    let (next, taken) ← mark c rest
    pure (next :: (← marks (taken - 1) rest))

/-! ## Groups -/

/-- A part of a sequence; anchors cannot be counted, and a counted part cannot be counted again. -/
structure Item where
  pattern : Pattern
  isCountable : Bool

/-- An open group: its finished alternatives and the items of the current one, latest first. -/
structure Frame where
  kind : GroupKind
  alternatives : List Pattern
  items : List Item

namespace Frame

def current (frame : Frame) : Pattern := sequenceOf (frame.items.reverse.map (·.pattern))

def closed (frame : Frame) : Pattern :=
  let body := frame.alternatives.foldr .choice frame.current
  match frame.kind with
  | .plain => body
  | .ahead negated => .ahead negated body

def push (frame : Frame) (pattern : Pattern) (isCountable : Bool) : Frame :=
  { frame with items := ⟨pattern, isCountable⟩ :: frame.items }

def counted? (frame : Frame) (least : Nat) (most : Option Nat) : Option Frame :=
  match frame.items with
  | item :: others =>
    if item.isCountable then
      some { frame with items := ⟨.repeated least most item.pattern, false⟩ :: others }
    else none
  | [] => none

end Frame

/-- Puts the marks together; the innermost open group is the frame at hand. -/
def assemble : Frame → List Frame → List Mark → Except ReadFault Pattern
  | frame, [], [] => .ok frame.closed
  | _, _ :: _, [] => .error .malformed
  | frame, outer, next :: rest =>
    match next with
    | .one set => assemble (frame.push (.one set) true) outer rest
    | .anchor edge => assemble (frame.push (.anchor edge) false) outer rest
    | .count least most =>
      match frame.counted? least most with
      | some frame => assemble frame outer rest
      | none => .error .malformed
    | .bar => assemble ⟨frame.kind, frame.alternatives ++ [frame.current], []⟩ outer rest
    | .opening kind _ => assemble ⟨kind, [], []⟩ (frame :: outer) rest
    | .close =>
      match outer with
      | enclosing :: others => assemble (enclosing.push frame.closed true) others rest
      | [] => .error .malformed
    | .comment => assemble frame outer rest

def groupNames (marks : List Mark) : List String :=
  marks.filterMap fun
    | .opening _ name => name
    | _ => none

def read (cs : List Char) : Except ReadFault Pattern := do
  let parts ← marks 0 cs
  if (groupNames parts).eraseDups.length < (groupNames parts).length then throw .malformed
  assemble ⟨.plain, [], []⟩ [] parts

example : (read "a\x7b2\x7d|b".toList).toOption.map (·.found (Text.ofString "caab")) = some true := by decide
example : (read "(".toList).isOk = false ∧ (read "a**".toList).isOk = false := by decide

end ProfileConnector.Pattern
