import ProfileConnector.Types.Descriptor

/-!
Type bundles: all that is known of types once the derived types of a schema are complete. The bundle
holds a template for every declaration, catalog types before derived ones, and for every type its
properties by name with the inherited ones.
-/

namespace ProfileConnector

structure PropertyInfo where
  name : String
  memberName : String
  descriptor : Descriptor
  nullable : Bool
  deriving DecidableEq, Repr

structure TypeInfo where
  name : String
  names : DisplayNames
  properties : KeyedList String PropertyInfo
  deriving DecidableEq, Repr

namespace TypeInfo

def property? (info : TypeInfo) (key : String) : Option PropertyInfo := KeyedList.get? key info.properties

end TypeInfo

abbrev TypeMap := KeyedList String TypeInfo

structure DeclaredField where
  name : String
  variableName : String
  memberName : String
  descriptor : Descriptor
  isOptional : Bool
  deriving DecidableEq, Repr

structure TypeTemplate where
  name : String
  names : DisplayNames
  fields : List DeclaredField
  baseName : Option String := none
  baseNames : Option DisplayNames := none
  isDerived : Bool := false
  inherited : List DeclaredField := []
  deriving DecidableEq, Repr

structure EnumTemplate where
  name : String
  names : DisplayNames
  guardName : String
  members : List String
  deriving DecidableEq, Repr

structure Bundle where
  catalog : Catalog
  closure : List String
  derived : List DerivedType
  aliases : AliasTable
  typeMap : TypeMap
  templates : List TypeTemplate
  enums : List EnumTemplate

namespace DeclaredField

/-- The fields of some declarations, with distinct variable names. -/
def resolveAll (catalog : Catalog) (aliases : AliasTable) :
    List String → List CatalogProperty → Except CatalogFault (List DeclaredField)
  | _, [] => .ok []
  | used, property :: rest => do
    let variableName := Identifier.freshVariable property.name used
    let descriptor ← Descriptor.resolve catalog aliases property.declaredType
    let others ← resolveAll catalog aliases (variableName :: used) rest
    pure (⟨property.name, variableName, Identifier.memberName property.name, descriptor, property.nullable⟩
      :: others)

def toInfo (field : DeclaredField) : PropertyInfo :=
  ⟨field.name, field.memberName, field.descriptor, field.isOptional⟩

end DeclaredField

namespace TypeTemplate

/-- The type that a template declares, inherited fields first. -/
def toInfo (template : TypeTemplate) : TypeInfo where
  name := template.name
  names := template.names
  properties :=
    KeyedList.ofPairs ((template.inherited ++ template.fields).map fun field => (field.name, field.toInfo))

def ofCatalog (catalog : Catalog) (aliases : AliasTable) (name : String) :
    Except CatalogFault TypeTemplate := do
  let type ← catalog.get name
  let fields ← DeclaredField.resolveAll catalog aliases [] type.properties
  let ownNames := type.properties.map (·.name)
  let others := (← catalog.allProperties name).filter fun property => !ownNames.contains property.name
  let inherited ← DeclaredField.resolveAll catalog aliases [] others
  pure {
    name := name
    names := (KeyedList.get? name aliases).getD (DisplayNames.ofName name)
    fields := fields
    baseName := type.base
    baseNames := type.base.bind fun base => if base.isEmpty then none else KeyedList.get? base aliases
    inherited := inherited }

def ofDerived (catalog : Catalog) (aliases : AliasTable) (type : DerivedType) :
    Except CatalogFault TypeTemplate := do
  let properties := type.fields.map fun field => (⟨field.name, field.declaredType, true⟩ : CatalogProperty)
  let fields ← DeclaredField.resolveAll catalog aliases [] properties
  pure {
    name := type.name
    names := (KeyedList.get? type.name aliases).getD (DisplayNames.ofName type.name)
    fields := fields
    isDerived := true }

end TypeTemplate

def EnumTemplate.ofName (catalog : Catalog) (name : String) : EnumTemplate where
  name := name
  names := DisplayNames.ofName name
  guardName := "is_" ++ Identifier.snakeName name
  members := (catalog.enumMembers? name).getD []

namespace Bundle

def ofClosure (catalog : Catalog) (schema : Schema) (closure : List String) : Except CatalogFault Bundle := do
  let derived := (← catalog.synthesis schema closure).freeze.derived
  let aliases := AliasTable.build catalog derived
  let derivedNames := derived.map (·.name)
  let declared := closure.filter fun name => !catalog.isEnum name && !derivedNames.contains name
  let catalogTemplates ← declared.mapM (TypeTemplate.ofCatalog catalog aliases)
  let derivedTemplates ← derived.mapM (TypeTemplate.ofDerived catalog aliases)
  let templates := catalogTemplates ++ derivedTemplates
  pure {
    catalog := catalog
    closure := closure
    derived := derived
    aliases := aliases
    typeMap := KeyedList.ofPairs (templates.map fun template => (template.name, template.toInfo))
    templates := templates
    enums := (closure.filter catalog.isEnum).map (EnumTemplate.ofName catalog) }

def build (catalog : Catalog) (schema : Schema) (rootFacet : String) : Except CatalogFault Bundle := do
  ofClosure catalog schema (← catalog.reach (catalog.seeds schema rootFacet))

def infoFor? (bundle : Bundle) (entity : String) : Option TypeInfo :=
  match KeyedList.get? entity bundle.typeMap with
  | some info => some info
  | none => KeyedList.get? (bundle.catalog.resolve entity) bundle.typeMap

end Bundle

end ProfileConnector
