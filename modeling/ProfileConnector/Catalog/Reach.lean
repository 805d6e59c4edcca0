import ProfileConnector.Catalog.Label

/-!
The names that are reachable in a catalog. From a composite type one reaches its base type and the
types and enumerations that its own properties declare; scalars and opaque strings lead nowhere, and
names that the catalog lacks are not reached.
-/

namespace ProfileConnector.Catalog

/-- The catalog name that a property points at. A declared type must be one of the known ones. -/
def referencedName (catalog : Catalog) (owner : String) (property : CatalogProperty) :
    Except CatalogFault (Option String) :=
  let declared := DeclaredType.parse property.declaredType
  let unsupported : CatalogFault :=
    .unsupported property.declaredType (some (owner ++ "." ++ property.name))
  if declared.isScalar || declared.qualifier.isNone then
    if DeclaredType.supportedScalars.contains declared.element then .ok none else .error unsupported
  else if catalog.isStringLike declared.element then .ok none
  else match declared.catalogName? with
    | none => .error unsupported
    | some name => .ok (if catalog.isEnum name || catalog.has name then some name else none)

def adding (names : List String) (name : String) : List String :=
  if name ∈ names then names else names ++ [name]

def baseName? (catalog : Catalog) (type : CatalogType) : Option String :=
  match type.base with
  | some name => if !name.isEmpty && catalog.has name then some (catalog.resolve name) else none
  | none => none

/-- The names that one name leads to directly, the base first. -/
def successors (catalog : Catalog) (name : String) : Except CatalogFault (List String) :=
  if catalog.isEnum name then .ok []
  else do
    let type ← catalog.get name
    let references ← type.properties.mapM (catalog.referencedName name)
    pure ((catalog.baseName? type).toList ++ references.filterMap id)

def extend (catalog : Catalog) : List String → List String → Except CatalogFault (List String)
  | reached, [] => .ok reached
  | reached, name :: rest => do
    let found ← catalog.successors name
    extend catalog (found.foldl adding reached) rest

/-- Adds what the reached names lead to until nothing is added, at most `fuel` times. -/
def saturate (catalog : Catalog) : Nat → List String → Except CatalogFault (List String)
  | 0, reached => .ok reached
  | fuel + 1, reached => do
    let more ← catalog.extend reached reached
    if more.length = reached.length then pure reached else saturate catalog fuel more

def knownSeeds (catalog : Catalog) (seeds : List String) : List String :=
  ((seeds.map catalog.resolve).filter fun name => catalog.has name || catalog.isEnum name).foldl adding []

def nameCount (catalog : Catalog) : Nat :=
  catalog.types.length + catalog.enums.length + catalog.aliases.length

/--
The names reachable from the seeds: known seeds first, then the others in order of discovery. Every
round but the last adds a name, so there are no more rounds than names and one.
-/
def reach (catalog : Catalog) (seeds : List String) : Except CatalogFault (List String) :=
  catalog.saturate (catalog.nameCount + 1) (catalog.knownSeeds seeds)

/-- The seeds of a schema: the payload types of the labels, the root facet and the mapped entities. -/
def seeds (catalog : Catalog) (schema : Schema) (rootFacet : String) : List String :=
  let entities := schema.properties.filterMap fun property => property.entity.bind fun mapping =>
    if catalog.has mapping.entity then some (catalog.resolve mapping.entity) else none
  (PeopleLabel.all.map (·.catalogType) ++ rootFacet :: entities).foldl adding []

end ProfileConnector.Catalog
