import ProfileConnector.KeyedList
import ProfileConnector.Number.Binary64
import ProfileConnector.Text.Blank

/-!
Dynamic values: what raw records, documents and the results of transforms are made of. The members
of a record keep their order.
-/

namespace ProfileConnector

inductive Value where
  | null
  | bool (b : Bool)
  | int (n : Int)
  | float (x : Binary64)
  | text (t : Text)
  | list (items : List Value)
  | record (members : List (Text × Value))

namespace Value

def ofString (s : String) : Value := .text (Text.ofString s)

/-- A value counts as true unless it is null, false, zero or empty. -/
def truthy : Value → Bool
  | .null => false
  | .bool b => b
  | .int n => n != 0
  | .float x => !x.isZero
  | .text t => !t.isEmpty
  | .list items => !items.isEmpty
  | .record members => !members.isEmpty

def isBlank : Value → Bool
  | .null => true
  | .text t => (Text.trim t).isEmpty
  | _ => false

def isRecord : Value → Bool
  | .record _ => true
  | _ => false

def member? (key : Text) : Value → Option Value
  | .record members => KeyedList.get? key members
  | _ => none

/-- The place of a numeric value on the number line; truth values count as zero and one. -/
def magnitude? : Value → Option (Option Magnitude)
  | .bool b => some (some (Magnitude.ofInt (if b then 1 else 0)))
  | .int n => some (some (Magnitude.ofInt n))
  | .float x => some x.magnitude?
  | _ => none

end Value

end ProfileConnector
