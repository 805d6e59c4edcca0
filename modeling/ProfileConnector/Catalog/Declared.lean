import ProfileConnector.Text.Blank

/-!
Declared types. A declared type names an element, perhaps wrapped in `Collection(...)`; the part of
the element before the first dot qualifies it.
-/

namespace ProfileConnector

structure DeclaredType where
  raw : String
  element : String
  isCollection : Bool
  qualifier : Option String
  localName : String
  deriving DecidableEq, Repr

namespace DeclaredType

def scalarQualifier : String := "Edm"

def catalogQualifier : String := "graph"

/-- The inside of one `Collection(...)` on a single line. -/
def unwrapped? (cs : List Char) : Option (List Char) :=
  if "Collection(".toList.isPrefixOf cs then
    let inside := cs.drop "Collection(".length
    match inside.getLast? with
    | some ')' =>
      let element := inside.dropLast
      if element.isEmpty || element.contains '\n' then none else some element
    | _ => none
  else none

def qualified? (element : List Char) : Option (List Char × List Char) :=
  match element.dropWhile (· != '.') with
  | [] => none
  | _ :: rest => some (element.takeWhile (· != '.'), rest)

def parse (declared : String) : DeclaredType :=
  let text := Text.trimChars declared.toList
  let inside := unwrapped? text
  let element := (inside.map Text.trimChars).getD text
  let parts := qualified? element
  { raw := String.ofList text
    element := String.ofList element
    isCollection := inside.isSome
    qualifier := parts.map fun (front, _) => String.ofList front
    localName := String.ofList ((parts.map Prod.snd).getD element) }

def isScalar (declared : DeclaredType) : Bool := declared.qualifier == some scalarQualifier

/-- The name under which the catalog would know the element. -/
def catalogName? (declared : DeclaredType) : Option String :=
  if declared.qualifier = some catalogQualifier then some declared.localName else none

def supportedScalars : List String := [
  "Edm.String", "Edm.Date", "Edm.DateTimeOffset", "Edm.TimeOfDay", "Edm.Boolean", "Edm.Int32",
  "Edm.Int64", "Edm.Double"]

example : parse "Collection( graph.x )" = ⟨"Collection( graph.x )", "graph.x", true, some "graph", "x"⟩ := by
  decide

end DeclaredType

end ProfileConnector
