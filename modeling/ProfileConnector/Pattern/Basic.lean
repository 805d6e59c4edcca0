import ProfileConnector.Text.Blank
import ProfileConnector.Text.Digit
import ProfileConnector.Text.Letter

/-!
Patterns of text. A pattern takes a place in a text to the places where a match that starts there can
end; a text is found if a match starts anywhere in it. Which of several matches a search would report
does not matter here, so sets of places are all that is needed.
-/

namespace ProfileConnector

namespace CodePoint

def code : CodePoint → Nat
  | .scalar c => c.toNat
  | .half unit => 0xD800 + unit.val

end CodePoint

inductive CharacterKind where
  | digit | word | blank
  deriving DecidableEq, Repr

def CharacterKind.holds (kind : CharacterKind) : CodePoint → Bool :=
  CodePoint.satisfies <| match kind with
    | .digit => Text.isDecimalDigit
    | .word => Text.isWord
    | .blank => Text.isBlank

inductive SetItem where
  | range (low high : Nat)
  | kind (negated : Bool) (named : CharacterKind)
  deriving DecidableEq, Repr

def SetItem.holds (point : CodePoint) : SetItem → Bool
  | .range low high => low ≤ point.code && point.code ≤ high
  | .kind negated named => named.holds point != negated

structure PointSet where
  negated : Bool
  items : List SetItem
  deriving DecidableEq, Repr

def PointSet.holds (set : PointSet) (point : CodePoint) : Bool :=
  set.items.any (·.holds point) != set.negated

inductive Anchor where
  | first
  | last
  /-- The end, or the place before a final newline. -/
  | lastLine
  | wordEdge (negated : Bool)
  deriving DecidableEq, Repr

inductive Pattern where
  | nothing
  | one (set : PointSet)
  | anchor (edge : Anchor)
  | sequence (first second : Pattern)
  | choice (first second : Pattern)
  | repeated (least : Nat) (most : Option Nat) (body : Pattern)
  /-- A condition on what follows; it takes up no text. -/
  | ahead (negated : Bool) (body : Pattern)
  deriving DecidableEq, Repr

namespace Anchor

def wordAt (text : Text) (place : Nat) : Bool := (text[place]?).any CharacterKind.word.holds

def holds (text : Text) (place : Nat) : Anchor → Bool
  | .first => place = 0
  | .last => place = text.length
  | .lastLine =>
    place = text.length || (place + 1 = text.length && text[place]? == some (.scalar '\n'))
  | .wordEdge negated =>
    let before := 0 < place && wordAt text (place - 1)
    !text.isEmpty && ((before != wordAt text place) != negated)

end Anchor

namespace Pattern

def iterate (step : List Nat → List Nat) : Nat → List Nat → List Nat
  | 0, places => places
  | n + 1, places => iterate step n (step places)

def spread (step : List Nat → List Nat) : Nat → List Nat → List Nat
  | 0, places => places
  | n + 1, places => spread step n (places ++ step places).eraseDups

/--
Where a match that starts at a place can end. Since a match never goes back, more rounds of a
repetition than there are places add nothing.
-/
def ends (text : Text) : Pattern → Nat → List Nat
  | .nothing, place => [place]
  | .one set, place => if (text[place]?).any set.holds then [place + 1] else []
  | .anchor edge, place => if edge.holds text place then [place] else []
  | .sequence first second, place => ((ends text first place).flatMap fun next => ends text second next).eraseDups
  | .choice first second, place => (ends text first place ++ ends text second place).eraseDups
  | .repeated least most body, place =>
    let step (places : List Nat) := (places.flatMap fun next => ends text body next).eraseDups
    let bound := text.length + 1
    let further := match most with
      | none => bound
      | some most => min (most - least) bound
    spread step further (iterate step (min least bound) [place])
  | .ahead negated body, place => if (ends text body place).isEmpty == negated then [place] else []

def found (pattern : Pattern) (text : Text) : Bool :=
  (List.range (text.length + 1)).any fun place => !(ends text pattern place).isEmpty

def sequenceOf (patterns : List Pattern) : Pattern := patterns.foldr .sequence .nothing

end Pattern

end ProfileConnector
