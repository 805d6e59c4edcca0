import ProfileConnector.Number.Shortest
import ProfileConnector.Text.Quoted
import ProfileConnector.Value.Basic

/-!
The text of a value: names for the constants, numbers in decimal, text as ASCII literals, lists in
brackets and records in braces, with the given separators.
-/

namespace ProfileConnector.Value

structure Separators where
  item : String
  key : String

def spaced : Separators := ⟨", ", ": "⟩

def compact : Separators := ⟨",", ":"⟩

def boolText (b : Bool) : String := if b then "true" else "false"

def floatText (x : Binary64) : String := x.textWith "NaN" "Infinity"

mutual

def write (separators : Separators) : Value → String
  | .null => "null"
  | .bool b => boolText b
  | .int n => toString n
  | .float x => floatText x
  | .text t => Text.quoteText t
  | .list items => "[" ++ separators.item.intercalate (writeItems separators items) ++ "]"
  | .record members =>
    "\x7b" ++ separators.item.intercalate (writeMembers separators members) ++ "\x7d"

def writeItems (separators : Separators) : List Value → List String
  | [] => []
  | item :: rest => write separators item :: writeItems separators rest

def writeMembers (separators : Separators) : List (Text × Value) → List String
  | [] => []
  | (key, member) :: rest =>
    (Text.quoteText key ++ separators.key ++ write separators member) :: writeMembers separators rest

end

mutual

/-- The value without the members that are null, at every depth; null items of lists stay. -/
def pruned : Value → Value
  | .list items => .list (prunedItems items)
  | .record members => .record (prunedMembers members)
  | value => value

def prunedItems : List Value → List Value
  | [] => []
  | item :: rest => pruned item :: prunedItems rest

def prunedMembers : List (Text × Value) → List (Text × Value)
  | [] => []
  | (_, .null) :: rest => prunedMembers rest
  | (key, member) :: rest => (key, pruned member) :: prunedMembers rest

end

def toJson (value : Value) : String := write compact value.pruned

example : toJson (.record [(Text.ofString "a", .null), (Text.ofString "b", .list [.null, .int 1])]) =
    "\x7b\"b\":[null,1]\x7d" := by decide

end ProfileConnector.Value
