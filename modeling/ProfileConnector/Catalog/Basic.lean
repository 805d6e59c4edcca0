import ProfileConnector.Catalog.Declared
import ProfileConnector.KeyedList
import ProfileConnector.Value.Basic

/-!
The type catalog: composite types with inheritance, closed enumerations, declared types that are
opaque strings, and other names for types. No two types have one name.
-/

namespace ProfileConnector

structure CatalogProperty where
  name : String
  declaredType : String
  nullable : Bool := true
  deriving DecidableEq, Repr

structure CatalogType where
  name : String
  properties : List CatalogProperty := []
  base : Option String := none
  deriving DecidableEq, Repr

structure Snapshot where
  types : List CatalogType := []
  enums : KeyedList String (List String) := []
  stringTypes : List String := []
  aliases : KeyedList String String := []
  version : Value := .null

structure Catalog extends Snapshot where
  names_distinct : (types.map CatalogType.name).Nodup

inductive CatalogFault where
  | typeNotFound (name : String)
  | duplicateType (name : String)
  /-- A declared type outside the known ones, and the property that declares it. -/
  | unsupported (declared : String) (place : Option String)
  | unknownLabel (label : String)
  deriving DecidableEq, Repr

def CatalogFault.message : CatalogFault → String
  | .typeNotFound name => s!"Catalog type not found: '{name}'"
  | .duplicateType name => s!"Duplicate catalog type name '{name}'"
  | .unsupported declared place =>
    let shown := (place.map fun owner => s!" (in {owner})").getD ""
    s!"Unsupported declared type '{declared}'{shown}. Add a mapping for it before generating code."
  | .unknownLabel label => s!"Missing catalog type mapping for people label '{label}'"

namespace Catalog

def firstRepeated? (seen : List String) : List String → Option String
  | [] => none
  | name :: rest => if name ∈ seen then some name else firstRepeated? (name :: seen) rest

theorem nodup_of_firstRepeated?_eq_none {seen names : List String}
    (absent : firstRepeated? seen names = none) : names.Nodup ∧ ∀ name ∈ names, name ∉ seen := by
  induction names generalizing seen with
  | nil => simp
  | cons name rest ih =>
    by_cases known : name ∈ seen
    · simp [firstRepeated?, known] at absent
    · obtain ⟨distinct, fresh⟩ := ih (by simpa [firstRepeated?, known] using absent)
      refine ⟨List.nodup_cons.mpr ⟨fun member => fresh name member List.mem_cons_self, distinct⟩, ?_⟩
      intro other member
      rcases List.mem_cons.mp member with rfl | later
      · exact known
      · exact fun seenBefore => fresh other later (List.mem_cons_of_mem _ seenBefore)

def ofSnapshot (snapshot : Snapshot) : Except CatalogFault Catalog :=
  match found : firstRepeated? [] (snapshot.types.map CatalogType.name) with
  | some name => .error (.duplicateType name)
  | none => .ok { snapshot with names_distinct := (nodup_of_firstRepeated?_eq_none found).1 }

def resolve (catalog : Catalog) (name : String) : String :=
  (KeyedList.get? name catalog.aliases).getD name

def typeNamed? (catalog : Catalog) (name : String) : Option CatalogType :=
  catalog.types.find? fun type => type.name == name

def find? (catalog : Catalog) (name : String) : Option CatalogType :=
  catalog.typeNamed? (catalog.resolve name)

def get (catalog : Catalog) (name : String) : Except CatalogFault CatalogType :=
  match catalog.find? name with
  | some type => .ok type
  | none => .error (.typeNotFound name)

def has (catalog : Catalog) (name : String) : Bool := (catalog.find? name).isSome

def enumMembers? (catalog : Catalog) (name : String) : Option (List String) :=
  KeyedList.get? name catalog.enums

def isEnum (catalog : Catalog) (name : String) : Bool := (catalog.enumMembers? name).isSome

def enumMembers (catalog : Catalog) (name : String) : Except CatalogFault (List String) :=
  match catalog.enumMembers? name with
  | some members => .ok members
  | none => .error (.typeNotFound name)

/-- The declared type is an opaque string, alone or in a collection. -/
def isStringLike (catalog : Catalog) (declared : String) : Bool :=
  catalog.stringTypes.contains (DeclaredType.parse declared).element

def base? (catalog : Catalog) (type : CatalogType) : Option CatalogType :=
  match type.base with
  | some name => if name.isEmpty then none else catalog.find? name
  | none => none

/-- The type and its bases in turn, up to the first name that would come again. -/
def chainFrom (catalog : Catalog) : Nat → List String → CatalogType → List CatalogType
  | 0, _, _ => []
  | fuel + 1, seen, type =>
    if type.name ∈ seen then []
    else type :: match catalog.base? type with
      | some base => chainFrom catalog fuel (type.name :: seen) base
      | none => []

/-- The base chain of a type. A chain without repetition is no longer than the catalog. -/
def chain (catalog : Catalog) (type : CatalogType) : List CatalogType :=
  catalog.chainFrom (catalog.types.length + 1) [] type

/-- Declarations by name in order of first appearance, the last one of a name counting. -/
def merged (properties : List CatalogProperty) : List CatalogProperty :=
  (KeyedList.ofPairs (properties.map fun property => (property.name, property))).map Prod.snd

/-- The properties of a type with the inherited ones, those of the farthest base first. -/
def propertiesOf (catalog : Catalog) (type : CatalogType) : List CatalogProperty :=
  merged ((catalog.chain type).reverse.flatMap (·.properties))

def allProperties (catalog : Catalog) (name : String) : Except CatalogFault (List CatalogProperty) :=
  (catalog.get name).map catalog.propertiesOf

end Catalog

end ProfileConnector
