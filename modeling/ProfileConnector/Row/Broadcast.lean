import ProfileConnector.Row.Fault
import ProfileConnector.Value.Basic

/-!
Lists that belong together position by position. A list of one element stands for a list of any
length; behind the end of a longer list there are empty texts.
-/

namespace ProfileConnector

namespace Value

/-- The elements of a value that can be gone through: items, code points or keys. -/
def elements? : Value → Option (List Value)
  | .list items => some items
  | .text t => some (t.map fun point => .text [point])
  | .record members => some (members.map fun (key, _) => .text key)
  | _ => none

def size? (value : Value) : Option Nat := value.elements?.map List.length

end Value

namespace Row

def sizeOf (value : Value) : Except RowFault Nat :=
  match value.size? with
  | some n => .ok n
  | none => .error .wrongKind

def emptyText : Value := .text []

def orEmpty (value : Value) : Value := if value.truthy then value else emptyText

/-- The element at an index, from the end if it is negative. -/
def elementAt (values : Value) (index : Int) : Except RowFault Value :=
  match values with
  | .record _ => .error .missingKey
  | values =>
    let items := values.elements?.getD []
    let place := if index < 0 then index + items.length else index
    if place < 0 then .error .outOfRange
    else match items[place.toNat]? with
      | some item => .ok item
      | none => .error .outOfRange

/-- An index as an integer; truth values count as zero and one. -/
def indexOf : Value → Except RowFault Int
  | .int i => .ok i
  | .bool b => .ok (if b then 1 else 0)
  | _ => .error .wrongKind

def picked? (values index : Value) : Except RowFault (Option Value) :=
  if !values.truthy then .ok none
  else do
    let size ← sizeOf values
    if size = 1 then pure (some (orEmpty (← elementAt values 0)))
    else
      let place ← indexOf index
      if place < size then pure (some (orEmpty (← elementAt values place))) else pure none

def picked (values index : Value) : Except RowFault Value := do
  pure ((← picked? values index).getD emptyText)

def pickedList (values index : Value) : Except RowFault Value := do
  pure (.list (← picked? values index).toList)

def broadcastLength (lists : List Value) : Except RowFault Nat := do
  pure ((← lists.mapM sizeOf).foldl max 0)

end Row

end ProfileConnector
