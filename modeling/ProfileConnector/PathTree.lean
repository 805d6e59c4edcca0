import ProfileConnector.KeyedList
import ProfileConnector.Path.Step
import ProfileConnector.Schema.Basic

/-!
Trees of dotted paths. The mappings of an entity form a tree whose inner nodes are the segments of
their paths. Of colliding paths the last one stands: a later leaf replaces a subtree, and a later
subtree replaces a leaf.
-/

namespace ProfileConnector

inductive PathTree where
  | leaf (mapping : FieldMapping)
  | node (children : List (String × PathTree))

namespace PathTree

abbrev Branches := KeyedList String PathTree

/-- The trimmed segments of a dotted path, empty ones left out. -/
def segments (path : String) : List String :=
  (((path.toList.splitOn '.').map Text.trimChars).filter (!·.isEmpty)).map String.ofList

def isLeaf : PathTree → Bool
  | .leaf _ => true
  | .node _ => false

def branchesAt (key : String) (branches : Branches) : Branches :=
  match KeyedList.get? key branches with
  | some (.node children) => children
  | _ => []

def insert (mapping : FieldMapping) : List String → Branches → Branches
  | [], branches => branches
  | [key], branches => KeyedList.put key (.leaf mapping) branches
  | key :: rest, branches =>
    KeyedList.put key (.node (insert mapping rest (branchesAt key branches))) branches

/-- The tree of a list of mappings; mappings without segments are left out. -/
def build (fields : List FieldMapping) : Branches :=
  fields.foldl (fun branches mapping => insert mapping (segments mapping.path) branches) []

mutual

def leaves : PathTree → List FieldMapping
  | .leaf mapping => [mapping]
  | .node children => leavesOf children

def leavesOf : List (String × PathTree) → List FieldMapping
  | [] => []
  | (_, child) :: rest => leaves child ++ leavesOf rest

end

end PathTree

/-- The array that all leaves run through and the path of each leaf from an element on, by raw path. -/
structure ArrayRoot where
  root : String
  relatives : KeyedList String String
  deriving DecidableEq, Repr

namespace ArrayRoot

def split? (source : Source) : Option (String × String) :=
  source.jsonPath.bind fun path =>
    (Path.splitArrayRoot (Text.ofString path)).map fun (root, relative) => (root.toString, relative.toString)

def collect : Option ArrayRoot → List FieldMapping → Option ArrayRoot
  | found, [] => found
  | found, leaf :: rest =>
    match split? leaf.source with
    | none => none
    | some (root, relative) =>
      match found with
      | none => collect (some ⟨root, [(leaf.path, relative)]⟩) rest
      | some shared =>
        if shared.root = root then
          collect (some { shared with relatives := KeyedList.put leaf.path relative shared.relatives }) rest
        else none

def common? (leaves : List FieldMapping) : Option ArrayRoot := collect none leaves

end ArrayRoot

end ProfileConnector
