import ProfileConnector.Number.Binary64
import ProfileConnector.Text.Blank

/-!
Connector schemas. A schema lists the output properties of a connector; a property reads its own
source or maps the fields of a profile entity, each field being read from a source of its own.
-/

namespace ProfileConnector

/-- What a leaf is read from: a path into the document, or the first filled one of some columns. -/
structure Source where
  headers : List String := []
  jsonPath : Option String := none
  fallback : Option String := none
  explicit : Bool := false
  unsourced : Bool := false
  deriving DecidableEq, Repr

namespace Source

def hasPath (source : Source) : Bool :=
  match source.jsonPath with
  | some path => !(Text.trimString path).isEmpty
  | none => false

def isEmpty (source : Source) : Bool := !source.hasPath && source.headers.isEmpty

end Source

/-- A dotted path into an entity and the source of the value that goes there. -/
structure FieldMapping where
  path : String
  source : Source
  deriving DecidableEq, Repr

structure EntityMapping where
  entity : String
  fields : List FieldMapping := []
  deriving DecidableEq, Repr

structure SearchFlags where
  searchable : Option Bool := none
  queryable : Option Bool := none
  retrievable : Option Bool := none
  refinable : Option Bool := none
  exactMatchRequired : Option Bool := none
  deriving DecidableEq, Repr

structure PatternConstraint where
  regex : String
  message : Option String := none
  deriving DecidableEq, Repr

inductive PropertyType where
  | string | int64 | double | dateTime | boolean
  | stringCollection | int64Collection | doubleCollection | dateTimeCollection
  | principal | principalCollection
  deriving DecidableEq, Repr

namespace PropertyType

def all : List PropertyType := [
  .string, .int64, .double, .dateTime, .boolean,
  .stringCollection, .int64Collection, .doubleCollection, .dateTimeCollection,
  .principal, .principalCollection]

def name : PropertyType → String
  | .string => "string"
  | .int64 => "int64"
  | .double => "double"
  | .dateTime => "dateTime"
  | .boolean => "boolean"
  | .stringCollection => "stringCollection"
  | .int64Collection => "int64Collection"
  | .doubleCollection => "doubleCollection"
  | .dateTimeCollection => "dateTimeCollection"
  | .principal => "principal"
  | .principalCollection => "principalCollection"

def ofName? (text : String) : Option PropertyType := all.find? fun type => type.name == text

def isCollection : PropertyType → Bool
  | .stringCollection | .int64Collection | .doubleCollection | .dateTimeCollection
  | .principalCollection => true
  | _ => false

def isNumeric : PropertyType → Bool
  | .int64 | .double | .int64Collection | .doubleCollection => true
  | _ => false

def isPrincipal : PropertyType → Bool
  | .principal | .principalCollection => true
  | _ => false

theorem ofName?_name (type : PropertyType) : ofName? type.name = some type := by
  cases type <;> decide

end PropertyType

structure Property where
  name : String
  type : PropertyType
  description : Option String := none
  labels : List String := []
  aliases : List String := []
  search : SearchFlags := {}
  entity : Option EntityMapping := none
  source : Source := {}
  minLength : Option Int := none
  maxLength : Option Int := none
  pattern : Option PatternConstraint := none
  format : Option String := none
  minValue : Option Binary64 := none
  maxValue : Option Binary64 := none
  deriving DecidableEq, Repr

structure Constraints where
  minLength : Option Int := none
  maxLength : Option Int := none
  pattern : Option String := none
  format : Option String := none
  minValue : Option Binary64 := none
  maxValue : Option Binary64 := none
  deriving DecidableEq, Repr

namespace Constraints

def hasString (limits : Constraints) : Bool :=
  limits.minLength.isSome || limits.maxLength.isSome || limits.pattern.isSome || limits.format.isSome

def hasNumber (limits : Constraints) : Bool := limits.minValue.isSome || limits.maxValue.isSome

end Constraints

namespace Property

def isPeopleLabelled (property : Property) : Bool :=
  property.labels.any fun label => "person".toList.isPrefixOf label.toList

/-- The limits of a property; an empty pattern or format is none. -/
def constraints (property : Property) : Constraints where
  minLength := property.minLength
  maxLength := property.maxLength
  pattern := (property.pattern.map (·.regex)).filter (!·.isEmpty)
  format := property.format.filter (!·.isEmpty)
  minValue := property.minValue
  maxValue := property.maxValue

end Property

inductive InputFormat where
  | csv | json | yaml | rest | custom
  deriving DecidableEq, Repr

namespace InputFormat

def all : List InputFormat := [.csv, .json, .yaml, .rest, .custom]

def name : InputFormat → String
  | .csv => "csv"
  | .json => "json"
  | .yaml => "yaml"
  | .rest => "rest"
  | .custom => "custom"

def ofName? (text : String) : Option InputFormat := all.find? fun format => format.name == text

def isRow (format : InputFormat) : Bool := format == .csv

end InputFormat

structure Schema where
  contentCategory : Option String := none
  inputFormat : InputFormat := .csv
  itemTypeName : String := "Item"
  idPropertyName : String := "id"
  properties : List Property := []
  deriving DecidableEq, Repr

/-- The schema describes people, by its category or by a label. -/
def Schema.hasPeople (schema : Schema) : Bool :=
  schema.contentCategory == some "people" || schema.properties.any (·.isPeopleLabelled)

end ProfileConnector
