import ProfileConnector.Catalog.Reach
import ProfileConnector.Identifier
import ProfileConnector.PathTree

/-!
Derived types. An entity that the catalog lacks gets a type whose fields are the keys of its path
tree; a subtree becomes a type of its own, named by the outer name and the capitalized key. Types
grow while paths are added, and a field keeps what it was first; frozen types grow no more.
-/

namespace ProfileConnector

inductive FieldTarget where
  | text
  | nested (type : String)
  deriving DecidableEq, Repr

structure DerivedField where
  name : String
  variableName : String
  target : FieldTarget
  deriving DecidableEq, Repr

namespace DerivedField

def declaredType (field : DerivedField) : String :=
  match field.target with
  | .text => "Edm.String"
  | .nested type => DeclaredType.catalogQualifier ++ "." ++ type

def nestedType? (field : DerivedField) : Option String :=
  match field.target with
  | .text => none
  | .nested type => some type

end DerivedField

structure DerivedType where
  name : String
  fields : List DerivedField
  deriving DecidableEq, Repr

namespace DerivedType

def field? (type : DerivedType) (name : String) : Option DerivedField :=
  type.fields.find? fun field => field.name == name

end DerivedType

/-- The fields of the derived types by name, in order of creation. -/
abbrev DerivedFields := KeyedList String (List DerivedField)

namespace DerivedFields

def fieldsOf (types : DerivedFields) (name : String) : List DerivedField :=
  (KeyedList.get? name types).getD []

def field? (types : DerivedFields) (name key : String) : Option DerivedField :=
  (types.fieldsOf name).find? fun field => field.name == key

/-- Creates a type without fields, unless it exists. -/
def opened (types : DerivedFields) (name : String) : DerivedFields :=
  KeyedList.put name (types.fieldsOf name) types

def adding (types : DerivedFields) (name key : String) (target : FieldTarget) : DerivedFields :=
  let fields := types.fieldsOf name
  let variableName := Identifier.freshVariable key (fields.map (·.variableName))
  KeyedList.put name (fields ++ [⟨key, variableName, target⟩]) types

def nestedName (name key : String) : String := name ++ Identifier.memberName key

mutual

def visit (types : DerivedFields) (name : String) : List (String × PathTree) → DerivedFields
  | [] => types
  | (key, child) :: rest => visit (visitChild types name key child) name rest

def visitChild (types : DerivedFields) (name key : String) : PathTree → DerivedFields
  | .leaf _ =>
    match types.field? name key with
    | some _ => types
    | none => types.adding name key .text
  | .node children =>
    match types.field? name key with
    | some field =>
      match field.target with
      | .text => types
      | .nested type => visit (types.opened type) type children
    | none =>
      let type := nestedName name key
      visit ((types.adding name key (.nested type)).opened type) type children

end

/-- Creates or extends the type of a path tree. -/
def extended (types : DerivedFields) (name : String) (tree : PathTree.Branches) : DerivedFields :=
  visit (types.opened name) name tree

def toTypes (types : DerivedFields) : List DerivedType := types.map fun (name, fields) => ⟨name, fields⟩

end DerivedFields

structure Synthesis where
  types : DerivedFields := []
  frozen : Bool := false
  deriving DecidableEq, Repr

inductive SynthesisFault where
  | frozen (name : String)
  | unknownType (name : String)
  deriving DecidableEq, Repr

def SynthesisFault.message : SynthesisFault → String
  | .frozen name => s!"Cannot synthesize '{name}': the synthesis context is frozen"
  | .unknownType name => name

namespace Synthesis

def has (synthesis : Synthesis) (name : String) : Bool := (KeyedList.get? name synthesis.types).isSome

def get (synthesis : Synthesis) (name : String) : Except SynthesisFault DerivedType :=
  match KeyedList.get? name synthesis.types with
  | some fields => .ok ⟨name, fields⟩
  | none => .error (.unknownType name)

def synthesize (synthesis : Synthesis) (name : String) (tree : PathTree.Branches) :
    Except SynthesisFault Synthesis :=
  if synthesis.frozen then .error (.frozen name)
  else .ok { synthesis with types := synthesis.types.extended name tree }

def freeze (synthesis : Synthesis) : Synthesis := { synthesis with frozen := true }

def derived (synthesis : Synthesis) : List DerivedType := synthesis.types.toTypes

end Synthesis

namespace Schema

/-- The entity mappings of a schema by entity, principals left out. -/
def entityFields (schema : Schema) : KeyedList String (List FieldMapping) :=
  schema.properties.foldl (fun groups property =>
    match property.entity with
    | none => groups
    | some mapping =>
      if property.type.isPrincipal then groups
      else
        KeyedList.put mapping.entity
          ((KeyedList.get? mapping.entity groups).getD [] ++ mapping.fields) groups) []

end Schema

namespace Catalog

/-- The composite name that a declared type refers to and the catalog lacks. -/
def missingName? (catalog : Catalog) (declaredType : String) : Option String :=
  let declared := DeclaredType.parse declaredType
  match declared.catalogName? with
  | none => none
  | some name =>
    if catalog.isStringLike declared.element || catalog.isEnum name || catalog.has name then none
    else some name

/-- Derives the missing types of single-valued properties that a path tree maps subtrees into. -/
def deriveMissing (catalog : Catalog) (tree : PathTree.Branches) (types : DerivedFields)
    (property : CatalogProperty) : DerivedFields :=
  if (DeclaredType.parse property.declaredType).isCollection then types
  else match catalog.missingName? property.declaredType, KeyedList.get? property.name tree with
    | some name, some (.node children) => types.extended name children
    | _, _ => types

def deriveEntity (catalog : Catalog) (types : DerivedFields) (entity : String) (fields : List FieldMapping) :
    Except CatalogFault DerivedFields :=
  let tree := PathTree.build fields
  match catalog.find? entity with
  | none => .ok (types.extended entity tree)
  | some type => do
    pure ((← catalog.allProperties type.name).foldl (catalog.deriveMissing tree) types)

def deriveEntities (catalog : Catalog) : DerivedFields → List (String × List FieldMapping) →
    Except CatalogFault DerivedFields
  | types, [] => .ok types
  | types, (entity, fields) :: rest => do
    deriveEntities catalog (← catalog.deriveEntity types entity fields) rest

/-- Creates a type without fields for every name that reachable types refer to in vain. -/
def derivePlaceholders (catalog : Catalog) (closure : List String) (types : DerivedFields) : DerivedFields :=
  closure.foldl (fun types name =>
    match if catalog.isEnum name then none else catalog.find? name with
    | none => types
    | some type =>
      (type.properties.filterMap fun property => catalog.missingName? property.declaredType).foldl
        DerivedFields.opened types) types

def synthesis (catalog : Catalog) (schema : Schema) (closure : List String) : Except CatalogFault Synthesis := do
  let types ← catalog.deriveEntities [] schema.entityFields
  pure { types := catalog.derivePlaceholders closure types }

end Catalog

end ProfileConnector
