import ProfileConnector.Settings
import ProfileConnector.Types.Derived

/-!
Descriptors of declared types: how a type is shown in every target and how a value of it is told
apart at run time. An element is an opaque string, an enumeration, a composite type with an alias or
a supported scalar, looked up in this order.
-/

namespace ProfileConnector

structure DisplayNames where
  ts : String
  cs : String
  py : String
  deriving DecidableEq, Repr

namespace DisplayNames

def on (names : DisplayNames) : Target → String
  | .typescript => names.ts
  | .csharp => names.cs
  | .python => names.py

def ofName (name : String) : DisplayNames :=
  ⟨Identifier.typeName name, Identifier.memberName name, Identifier.typeName name⟩

def listed (names : DisplayNames) : DisplayNames :=
  ⟨names.ts ++ "[]", "List<" ++ names.cs ++ ">", "list[" ++ names.py ++ "]"⟩

end DisplayNames

abbrev AliasTable := KeyedList String DisplayNames

namespace AliasTable

def build (catalog : Catalog) (derived : List DerivedType) : AliasTable :=
  KeyedList.ofPairs <|
    (catalog.types.map (·.name) ++ derived.map (·.name)).map fun name => (name, DisplayNames.ofName name)

end AliasTable

inductive ElementKind where
  | scalar | stringLike | enumeration | composite
  deriving DecidableEq, Repr

/-- What an element type refers to: a primitive, a declared type or a name. -/
structure ElementRef where
  kind : ElementKind
  name : String
  deriving DecidableEq, Repr

namespace ElementRef

def isString (ref : ElementRef) : Bool :=
  ref.kind == .stringLike || (ref.kind == .scalar && ref.name == "string")

def isComposite (ref : ElementRef) : Bool := ref.kind == .composite

end ElementRef

inductive Guard where
  | hasType (primitive : String)
  | isMember (enumName : String)
  | isRecord
  | isArray
  deriving DecidableEq, Repr

def Guard.write (variableName : String) : Guard → String
  | .hasType primitive => s!"typeof {variableName} === \"{primitive}\""
  | .isMember enumName => s!"is{enumName}({variableName})"
  | .isRecord => s!"isRecord({variableName})"
  | .isArray => s!"Array.isArray({variableName})"

structure Element where
  ref : ElementRef
  names : DisplayNames
  guard : Guard
  expected : String
  deriving DecidableEq, Repr

/-- A declared type: its element, and whether there is a list of them. -/
structure Descriptor where
  isCollection : Bool
  element : Element
  deriving DecidableEq, Repr

namespace Descriptor

def names (descriptor : Descriptor) : DisplayNames :=
  if descriptor.isCollection then descriptor.element.names.listed else descriptor.element.names

def guard (descriptor : Descriptor) : Guard :=
  if descriptor.isCollection then .isArray else descriptor.element.guard

def expected (descriptor : Descriptor) : String :=
  if descriptor.isCollection then "an array" else descriptor.element.expected

def elementGuard? (descriptor : Descriptor) : Option Guard :=
  if descriptor.isCollection then some descriptor.element.guard else none

def elementExpected? (descriptor : Descriptor) : Option String :=
  if descriptor.isCollection then some descriptor.element.expected else none

end Descriptor

namespace Element

def ofScalar (names : DisplayNames) (expected : String) : Element :=
  ⟨⟨.scalar, names.ts⟩, names, .hasType names.ts, expected⟩

def scalars : List (String × Element) := [
  ("Edm.String", ofScalar ⟨"string", "string", "str"⟩ "a string"),
  ("Edm.Date", ofScalar ⟨"string", "string", "str"⟩ "a string"),
  ("Edm.DateTimeOffset", ofScalar ⟨"string", "DateTimeOffset", "str"⟩ "a string"),
  ("Edm.TimeOfDay", ofScalar ⟨"string", "string", "str"⟩ "a string"),
  ("Edm.Boolean", ofScalar ⟨"boolean", "bool", "bool"⟩ "a boolean"),
  ("Edm.Int32", ofScalar ⟨"number", "int", "int"⟩ "a number"),
  ("Edm.Int64", ofScalar ⟨"number", "long", "int"⟩ "a number"),
  ("Edm.Double", ofScalar ⟨"number", "double", "float"⟩ "a number")]

def ofOpaque (declared : String) : Element :=
  ⟨⟨.stringLike, declared⟩, ⟨"string", "string", "str"⟩, .hasType "string", "a string"⟩

def ofEnum (name : String) : Element :=
  ⟨⟨.enumeration, name⟩, DisplayNames.ofName name, .isMember (Identifier.typeName name), name ++ " value"⟩

def ofComposite (name : String) (names : DisplayNames) : Element :=
  ⟨⟨.composite, name⟩, names, .isRecord, "an object"⟩

def resolve (catalog : Catalog) (aliases : AliasTable) (declared : String) : Except CatalogFault Element :=
  let scalar := match KeyedList.get? declared scalars with
    | some element => .ok element
    | none => .error (.unsupported declared none)
  if catalog.isStringLike declared then .ok (ofOpaque declared)
  else match (DeclaredType.parse declared).catalogName? with
    | some name =>
      if catalog.isEnum name then .ok (ofEnum name)
      else match KeyedList.get? name aliases with
        | some names => .ok (ofComposite name names)
        | none => scalar
    | none => scalar

end Element

def Descriptor.resolve (catalog : Catalog) (aliases : AliasTable) (declaredType : String) :
    Except CatalogFault Descriptor :=
  let declared := DeclaredType.parse declaredType
  (Element.resolve catalog aliases declared.element).map fun element => ⟨declared.isCollection, element⟩

end ProfileConnector
