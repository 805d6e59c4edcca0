import ProfileConnector.Proofs.Catalog.Chain
import ProfileConnector.Proofs.Types.Bundle
import ProfileConnector.Proofs.Types.Descriptor

/-!
What is resolved. Reachability, synthesis and descriptors each take a declared type apart by
themselves. They agree on all declared types that reachability admits but one kind: a catalog type that
is meant by another name than its own is neither missing from the catalog nor in the table of names.
-/

namespace ProfileConnector

open Outcome

/-! ## One declared type -/

namespace Catalog

variable {catalog : Catalog} {aliases : AliasTable} {owner : String} {property : CatalogProperty}

/-- The name under which a declared type means a catalog type that has another name. -/
def aliasName? (catalog : Catalog) (declaredType : String) : Option String :=
  let declared := DeclaredType.parse declaredType
  match declared.catalogName? with
  | none => none
  | some name =>
    if catalog.isStringLike declared.element || catalog.isEnum name || (catalog.typeNamed? name).isSome then none
    else if catalog.has name then some name
    else none

theorem aliasName?_eq_some {declaredType name : String} (refers : catalog.aliasName? declaredType = some name) :
    (DeclaredType.parse declaredType).catalogName? = some name ∧ catalog.has name = true ∧
      name ∉ catalog.types.map (·.name) := by
  simp only [aliasName?] at refers
  split at refers
  · cases refers
  · rename_i other named
    split at refers
    · cases refers
    · rename_i foreign
      split at refers
      · rename_i known
        cases refers
        simp only [Bool.or_eq_true, not_or] at foreign
        exact ⟨named, known, fun listed => foreign.2 (typeNamed?_isSome.mpr listed)⟩
      · cases refers

theorem referencedName_ok {target : Option String} (admitted : catalog.referencedName owner property = .ok target) :
    let declared := DeclaredType.parse property.declaredType
    declared.element ∈ DeclaredType.supportedScalars ∨ catalog.isStringLike declared.element = true ∨
      ∃ name, declared.catalogName? = some name := by
  simp only [referencedName] at admitted
  split at admitted
  · split at admitted
    · rename_i supported
      exact Or.inl (by simpa using supported)
    · cases admitted
  · split at admitted
    · rename_i text
      exact Or.inr (Or.inl text)
    · split at admitted
      · cases admitted
      · rename_i name named
        exact Or.inr (Or.inr ⟨name, named⟩)

theorem not_supported_of_catalogName? {declared name : String}
    (named : (DeclaredType.parse declared).catalogName? = some name) :
    (DeclaredType.parse declared).element ∉ DeclaredType.supportedScalars := by
  intro supported
  have first := DeclaredType.head_of_supported supported
  rw [(DeclaredType.element_of_catalogName? named).1] at first
  simp [DeclaredType.catalogQualifier] at first

/-- What the table of names must hold for an admitted declared type to be resolved. -/
theorem resolve_isOk_iff {target : Option String} (admitted : catalog.referencedName owner property = .ok target)
    (types : ∀ type ∈ catalog.types, type.name ∈ KeyedList.keys aliases)
    (missing : ∀ name, catalog.missingName? property.declaredType = some name → name ∈ KeyedList.keys aliases) :
    (∃ descriptor, Descriptor.resolve catalog aliases property.declaredType = .ok descriptor) ↔
      ∀ name, catalog.aliasName? property.declaredType = some name → name ∈ KeyedList.keys aliases := by
  have element : (∃ descriptor, Descriptor.resolve catalog aliases property.declaredType = .ok descriptor) ↔
      ∃ element, Element.resolve catalog aliases (DeclaredType.parse property.declaredType).element = .ok element := by
    simp [Descriptor.resolve, map_eq_ok]
  rw [element, Element.resolve_isOk]
  cases named : (DeclaredType.parse property.declaredType).catalogName? with
  | none =>
    have known := referencedName_ok admitted
    simp only [named, reduceCtorEq, exists_false, or_false] at known
    simp only [aliasName?, named, reduceCtorEq, false_implies, implies_true, iff_true]
    exact known.elim (fun scalar => Or.inr (Or.inl scalar)) Or.inl
  | some name =>
    have scalar := not_supported_of_catalogName? named
    have again := (DeclaredType.parse_element named).2
    simp only [scalar, again, Option.some.injEq, exists_eq_left', false_or]
    simp only [missingName?, named] at missing
    simp only [aliasName?, named]
    cases text : catalog.isStringLike (DeclaredType.parse property.declaredType).element with
    | true => simp
    | false =>
      cases enumeration : catalog.isEnum name with
      | true => simp
      | false =>
        cases own : catalog.typeNamed? name with
        | some type =>
          have listed : type.name ∈ KeyedList.keys aliases := types type (List.mem_of_find?_eq_some own)
          simpa [own] using name_of_typeNamed? own ▸ listed
        | none =>
          cases known : catalog.has name with
          | true => simp
          | false =>
            -- Nothing has this name but a placeholder.
            have placeholder := missing name (by simp [text, enumeration, known])
            simpa [own] using placeholder

/-! ## Templates -/

theorem mem_propertiesOf {type : CatalogType} (member : property ∈ catalog.propertiesOf type) :
    ∃ ancestor ∈ catalog.chain type, property ∈ ancestor.properties := by
  obtain ⟨ancestor, listed, own⟩ := List.mem_flatMap.mp (mem_of_get?_reverse (get?_of_mem_merged member))
  exact ⟨ancestor, List.mem_reverse.mp listed, own⟩

end Catalog

namespace CatalogProperty

def Resolves (catalog : Catalog) (aliases : AliasTable) (property : CatalogProperty) : Prop :=
  ∃ descriptor, Descriptor.resolve catalog aliases property.declaredType = .ok descriptor

end CatalogProperty

theorem DeclaredField.resolveAll_isOk (catalog : Catalog) (aliases : AliasTable) (used : List String)
    (properties : List CatalogProperty) : (∃ fields, resolveAll catalog aliases used properties = .ok fields) ↔
      ∀ property ∈ properties, property.Resolves catalog aliases := by
  constructor
  · rintro ⟨fields, resolved⟩ property member
    obtain ⟨field, _, shows⟩ := exists_right (resolveAll_shows resolved) member
    exact ⟨_, shows.descriptor⟩
  · intro each
    induction properties generalizing used with
    | nil => exact ⟨[], rfl⟩
    | cons first rest ih =>
      obtain ⟨descriptor, found⟩ := each first List.mem_cons_self
      obtain ⟨others, later⟩ := ih _ fun property member => each property (List.mem_cons_of_mem first member)
      exact ⟨_, bind_eq_ok.mpr ⟨descriptor, found, bind_eq_ok.mpr ⟨others, later, rfl⟩⟩⟩

theorem DeclaredField.resolveAll_error {catalog : Catalog} {aliases : AliasTable} {used : List String}
    {properties : List CatalogProperty} {fault : CatalogFault}
    (failed : resolveAll catalog aliases used properties = .error fault) :
    ∃ property ∈ properties, Descriptor.resolve catalog aliases property.declaredType = .error fault := by
  induction properties generalizing used with
  | nil => cases failed
  | cons first rest ih =>
    rcases bind_eq_error.mp failed with here | ⟨descriptor, _, remaining⟩
    · exact ⟨first, List.mem_cons_self, here⟩
    · rcases bind_eq_error.mp remaining with later | ⟨others, _, impossible⟩
      · obtain ⟨property, member, refused⟩ := ih later
        exact ⟨property, List.mem_cons_of_mem first member, refused⟩
      · cases impossible

namespace TypeTemplate

variable {catalog : Catalog} {aliases : AliasTable} {name : String} {type : CatalogType}

theorem mem_properties_of_name {property : CatalogProperty} (member : property ∈ catalog.propertiesOf type)
    (own : property.name ∈ type.properties.map (·.name)) : property ∈ type.properties := by
  obtain ⟨bases, chained⟩ : ∃ bases, catalog.chain type = type :: bases := by
    simp [Catalog.chain, Catalog.chainFrom]
  simp only [Catalog.propertiesOf, chained, List.reverse_cons, List.flatMap_append, List.flatMap_cons,
    List.flatMap_nil, List.append_nil] at member
  have found := Catalog.get?_of_mem_merged member
  rw [CatalogProperty.named_append, List.reverse_append, KeyedList.get?_append] at found
  obtain ⟨last, declared⟩ := Option.isSome_iff_exists.mp (CatalogProperty.isSome_get?_reverse.mpr own)
  rw [declared, Option.some_or, Option.some.injEq] at found
  exact found ▸ Catalog.mem_of_get?_reverse declared

theorem ofCatalog_isOk (found : catalog.find? name = some type) :
    (∃ template, ofCatalog catalog aliases name = .ok template) ↔
      ∀ property, property ∈ type.properties ∨ property ∈ catalog.propertiesOf type →
        property.Resolves catalog aliases := by
  have known : catalog.get name = .ok type := Catalog.get_eq_ok.mpr found
  constructor
  · rintro ⟨template, made⟩ property member
    obtain ⟨_, declares⟩ := declares_of_ofCatalog made
    cases known.symm.trans declares.known
    -- An inherited property that the type declares itself is resolved as its own one.
    by_cases named : property.name ∈ type.properties.map (·.name)
    · have listed := member.elim id fun inside => mem_properties_of_name inside named
      exact (DeclaredField.resolveAll_isOk _ _ _ _).mp ⟨_, declares.fields⟩ property listed
    · have inside : property ∈ catalog.propertiesOf type := member.resolve_left fun listed =>
        named (List.mem_map.mpr ⟨property, listed, rfl⟩)
      exact (DeclaredField.resolveAll_isOk _ _ _ _).mp ⟨_, declares.inherited⟩ property
        (List.mem_filter.mpr ⟨inside, by simpa using named⟩)
  · intro each
    obtain ⟨fields, own⟩ := (DeclaredField.resolveAll_isOk catalog aliases [] type.properties).mpr
      fun property member => each property (Or.inl member)
    obtain ⟨inherited, others⟩ := (DeclaredField.resolveAll_isOk catalog aliases []
      ((catalog.propertiesOf type).filter fun property => !(type.properties.map (·.name)).contains property.name)).mpr
      fun property member => each property (Or.inr (List.mem_of_mem_filter member))
    have all : catalog.allProperties name = .ok (catalog.propertiesOf type) := by simp [Catalog.allProperties, known]
    exact ⟨_, bind_eq_ok.mpr ⟨type, known, bind_eq_ok.mpr ⟨fields, own, bind_eq_ok.mpr ⟨_, all,
      bind_eq_ok.mpr ⟨inherited, others, rfl⟩⟩⟩⟩⟩

theorem ofCatalog_error {fault : CatalogFault} (found : catalog.find? name = some type)
    (failed : ofCatalog catalog aliases name = .error fault) :
    ∃ property, (property ∈ type.properties ∨ property ∈ catalog.propertiesOf type) ∧
      Descriptor.resolve catalog aliases property.declaredType = .error fault := by
  have known : catalog.get name = .ok type := Catalog.get_eq_ok.mpr found
  have all : catalog.allProperties name = .ok (catalog.propertiesOf type) := by simp [Catalog.allProperties, known]
  rcases bind_eq_error.mp failed with gotten | ⟨_, same, remaining⟩
  · cases known.symm.trans gotten
  cases known.symm.trans same
  rcases bind_eq_error.mp remaining with own | ⟨fields, _, remaining⟩
  · obtain ⟨property, member, refused⟩ := DeclaredField.resolveAll_error own
    exact ⟨property, Or.inl member, refused⟩
  rcases bind_eq_error.mp remaining with absent | ⟨_, same, remaining⟩
  · cases all.symm.trans absent
  cases all.symm.trans same
  rcases bind_eq_error.mp remaining with others | ⟨inherited, _, impossible⟩
  · obtain ⟨property, member, refused⟩ := DeclaredField.resolveAll_error others
    exact ⟨property, Or.inr (List.mem_of_mem_filter member), refused⟩
  · cases impossible

end TypeTemplate

/-! ## Bundles -/

namespace AliasTable

variable {catalog : Catalog} {derived : List DerivedType} {name : String}

theorem mem_keys_build : name ∈ KeyedList.keys (build catalog derived) ↔
    name ∈ catalog.types.map (·.name) ∨ name ∈ derived.map (·.name) := by
  rw [build, KeyedList.mem_keys_ofPairs]
  simp [KeyedList.keys]

end AliasTable

theorem DerivedFields.Sound.declaredType {types : DerivedFields} (sound : Sound types) {type : DerivedType}
    (member : type ∈ types.toTypes) {property : CatalogProperty} (listed : property ∈ type.declarations) :
    property.declaredType = "Edm.String" ∨ ∃ nested ∈ KeyedList.keys types, Text.EndsFilled nested.toList ∧
      property.declaredType = DeclaredType.catalogQualifier ++ "." ++ nested := by
  obtain ⟨field, own, rfl⟩ := List.mem_map.mp listed
  rw [← sound.fieldsOf_of_mem member] at own
  cases target : field.target with
  | text => exact Or.inl (by simp [DerivedField.declaredType, target])
  | nested nested =>
    have below : types.nested? type.name field.name = some nested := by
      simp [nested?, sound.field?_of_mem own, DerivedField.nestedType?, target]
    obtain ⟨present, filled⟩ := sound.nested _ _ _ below
    exact Or.inr ⟨nested, present, filled, by simp [DerivedField.declaredType, target]⟩

theorem TypeTemplate.ofDerived_isOk (catalog : Catalog) {aliases : AliasTable} {types : DerivedFields}
    (sound : DerivedFields.Sound types) (known : ∀ name ∈ KeyedList.keys types, name ∈ KeyedList.keys aliases)
    {type : DerivedType} (member : type ∈ types.toTypes) : ∃ template, ofDerived catalog aliases type = .ok template := by
  have each : ∀ property ∈ type.declarations, property.Resolves catalog aliases := by
    intro property listed
    suffices resolved : ∃ element,
        Element.resolve catalog aliases (DeclaredType.parse property.declaredType).element = .ok element by
      obtain ⟨element, shown⟩ := resolved
      exact ⟨_, by rw [Descriptor.resolve, shown]; rfl⟩
    rw [Element.resolve_isOk]
    rcases sound.declaredType member listed with text | ⟨nested, present, filled, spelled⟩
    · have scalar : (DeclaredType.parse "Edm.String").element ∈ DeclaredType.supportedScalars := by decide
      exact Or.inr (Or.inl (text ▸ scalar))
    · refine Or.inr (Or.inr ⟨nested, ?_, Or.inr (known nested present)⟩)
      simp [spelled, DeclaredType.parse_qualified filled, DeclaredType.catalogName?]
  obtain ⟨fields, resolved⟩ := (DeclaredField.resolveAll_isOk catalog aliases [] type.declarations).mpr each
  exact ⟨_, bind_eq_ok.mpr ⟨fields, resolved, rfl⟩⟩

namespace Bundle

variable {catalog : Catalog} {schema : Schema} {rootFacet : String} {closure : List String} {synthesis : Synthesis}

def aliasesOf (catalog : Catalog) (synthesis : Synthesis) : AliasTable := AliasTable.build catalog synthesis.types.toTypes

theorem mem_keys_aliasesOf {name : String} : name ∈ KeyedList.keys (aliasesOf catalog synthesis) ↔
    name ∈ catalog.types.map (·.name) ∨ name ∈ KeyedList.keys synthesis.types := by
  rw [aliasesOf, AliasTable.mem_keys_build, DerivedFields.names_toTypes]

/-- The names whose templates are made of the catalog. -/
def undisplaced (catalog : Catalog) (synthesis : Synthesis) (closure : List String) : List String :=
  closure.filter fun name => !catalog.isEnum name && !(KeyedList.keys synthesis.types).contains name

theorem mem_undisplaced {name : String} : name ∈ undisplaced catalog synthesis closure ↔
    name ∈ closure ∧ catalog.isEnum name = false ∧ name ∉ KeyedList.keys synthesis.types := by
  simp [undisplaced]

theorem ofClosure_isOk (synthesized : catalog.synthesis schema closure = .ok synthesis) :
    (∃ bundle, ofClosure catalog schema closure = .ok bundle) ↔ ∀ name ∈ undisplaced catalog synthesis closure,
      ∃ template, TypeTemplate.ofCatalog catalog (aliasesOf catalog synthesis) name = .ok template := by
  have names : synthesis.freeze.derived.map (·.name) = KeyedList.keys synthesis.types :=
    DerivedFields.names_toTypes synthesis.types
  rw [← mapM_isOk]
  constructor
  · rintro ⟨bundle, made⟩
    obtain ⟨_, same, made⟩ := bind_eq_ok.mp made
    cases synthesized.symm.trans same
    obtain ⟨declared, declarations, _⟩ := bind_eq_ok.mp made
    rw [names] at declarations
    exact ⟨declared, declarations⟩
  · rintro ⟨declared, declarations⟩
    obtain ⟨derived, derivations⟩ := mapM_isOk.mpr fun type member =>
      TypeTemplate.ofDerived_isOk catalog
        (Catalog.sound_synthesis synthesized) (fun name present => mem_keys_aliasesOf.mpr (Or.inr present)) member
    refine ⟨_, bind_eq_ok.mpr ⟨synthesis, synthesized, bind_eq_ok.mpr ⟨declared, ?_, bind_eq_ok.mpr ⟨derived,
      derivations, rfl⟩⟩⟩⟩
    rw [names]
    exact declarations

theorem ofClosure_error {fault : CatalogFault} (synthesized : catalog.synthesis schema closure = .ok synthesis)
    (failed : ofClosure catalog schema closure = .error fault) : ∃ name ∈ undisplaced catalog synthesis closure,
      TypeTemplate.ofCatalog catalog (aliasesOf catalog synthesis) name = .error fault := by
  have names : synthesis.freeze.derived.map (·.name) = KeyedList.keys synthesis.types :=
    DerivedFields.names_toTypes synthesis.types
  rcases bind_eq_error.mp failed with unmade | ⟨_, same, remaining⟩
  · cases synthesized.symm.trans unmade
  cases synthesized.symm.trans same
  rcases bind_eq_error.mp remaining with declarations | ⟨declared, _, remaining⟩
  · rw [names] at declarations
    exact mapM_eq_error declarations
  rcases bind_eq_error.mp remaining with derivations | ⟨derived, _, impossible⟩
  · obtain ⟨type, member, refused⟩ := mapM_eq_error derivations
    obtain ⟨template, made⟩ := TypeTemplate.ofDerived_isOk catalog
      (Catalog.sound_synthesis synthesized) (fun name present => mem_keys_aliasesOf.mpr (Or.inr present)) member
    cases made.symm.trans refused
  · cases impossible

/-- The bases of reachable types and the types that entities are mapped to are known by their own names. -/
structure NamesStand (catalog : Catalog) (schema : Schema) (closure : List String) : Prop where
  bases : ∀ name ∈ closure, ∀ type base, catalog.isEnum name = false → catalog.find? name = some type →
    catalog.base? type = some base → catalog.Standing base
  mapped : ∀ group ∈ schema.entityFields, ∀ type, catalog.find? group.1 = some type →
    catalog.find? type.name = some type

theorem NamesStand.of_types (standing : ∀ type ∈ catalog.types, catalog.Standing type) (schema : Schema)
    (closure : List String) : NamesStand catalog schema closure where
  bases name _ type base _ _ declared := by
    obtain ⟨_, _, _, found, _⟩ := Catalog.base?_eq_some declared
    exact standing base (Catalog.mem_types_of_find? found)
  mapped group _ type found := (standing type (Catalog.mem_types_of_find? found)).1

section

variable (reached : catalog.reach (catalog.seeds schema rootFacet) = .ok closure) (stand : NamesStand catalog schema closure)

include reached stand

theorem NamesStand.admitted {name : String} (member : name ∈ closure) {type : CatalogType}
    (composite : catalog.isEnum name = false) (found : catalog.find? name = some type) {property : CatalogProperty}
    (listed : property ∈ type.properties ∨ property ∈ catalog.propertiesOf type) :
    ∃ owner ∈ closure, ∃ ancestor, catalog.isEnum owner = false ∧ catalog.find? owner = some ancestor ∧
      property ∈ ancestor.properties ∧ ∃ target, catalog.referencedName owner property = .ok target := by
  obtain ⟨explored, complete, clear⟩ := Catalog.reach_ok reached
  have closed : ∀ source ∈ closure, ∀ name, catalog.Leads source name → name ∈ closure :=
    fun source known name leads => complete name (.step (explored.reachable source known) leads)
  obtain ⟨owner, known, ancestor, plain, stands, own⟩ : ∃ owner ∈ closure, ∃ ancestor,
      catalog.isEnum owner = false ∧ catalog.find? owner = some ancestor ∧ property ∈ ancestor.properties := by
    rcases listed with own | inherited
    · exact ⟨name, member, type, composite, found, own⟩
    · obtain ⟨ancestor, chained, own⟩ := Catalog.mem_propertiesOf inherited
      obtain ⟨owner, known, plain, stands⟩ :=
        Catalog.exists_owner closed stand.bases member composite found ancestor chained
      exact ⟨owner, known, ancestor, plain, stands, own⟩
  refine ⟨owner, known, ancestor, plain, stands, own, ?_⟩
  cases outcome : catalog.referencedName owner property with
  | ok target => exact ⟨target, rfl⟩
  | error fault =>
    exact absurd ⟨plain, ancestor, stands, property, own, outcome⟩ (clear owner (explored.reachable owner known) fault)

theorem NamesStand.resolves_iff (synthesized : catalog.synthesis schema closure = .ok synthesis) {name : String}
    (member : name ∈ closure) {type : CatalogType} (composite : catalog.isEnum name = false)
    (found : catalog.find? name = some type) {property : CatalogProperty}
    (listed : property ∈ type.properties ∨ property ∈ catalog.propertiesOf type) :
    property.Resolves catalog (aliasesOf catalog synthesis) ↔
      ∀ other, catalog.aliasName? property.declaredType = some other → other ∈ KeyedList.keys synthesis.types := by
  obtain ⟨owner, known, ancestor, plain, stands, own, target, admitted⟩ :=
    stand.admitted reached member composite found listed
  refine (Catalog.resolve_isOk_iff admitted ?_ ?_).trans ?_
  · exact fun type listed => mem_keys_aliasesOf.mpr (Or.inl (List.mem_map.mpr ⟨type, listed, rfl⟩))
  · exact fun missing refers => mem_keys_aliasesOf.mpr
      (Or.inr (Catalog.mem_keys_of_missingName? synthesized known plain stands own refers))
  · refine forall_congr' fun other => imp_congr_right fun refers => ?_
    rw [mem_keys_aliasesOf, or_iff_right (Catalog.aliasName?_eq_some refers).2.2]

end

theorem exists_build_iff (reached : catalog.reach (catalog.seeds schema rootFacet) = .ok closure)
    (stand : NamesStand catalog schema closure) (synthesized : catalog.synthesis schema closure = .ok synthesis) :
    (∃ bundle, build catalog schema rootFacet = .ok bundle) ↔
      ∀ name ∈ undisplaced catalog synthesis closure, ∀ type, catalog.find? name = some type →
        ∀ property, property ∈ type.properties ∨ property ∈ catalog.propertiesOf type →
          ∀ other, catalog.aliasName? property.declaredType = some other → other ∈ KeyedList.keys synthesis.types := by
  rw [build, reached, ok_bind, ofClosure_isOk synthesized]
  refine forall₂_congr fun name listed => ?_
  obtain ⟨member, composite, _⟩ := mem_undisplaced.mp listed
  obtain ⟨type, found⟩ := Catalog.exists_find?_of_reach reached member composite
  rw [TypeTemplate.ofCatalog_isOk found]
  simp only [found, Option.some.injEq, forall_eq']
  exact forall₂_congr fun property owned => stand.resolves_iff reached synthesized member composite found owned

theorem build_error (reached : catalog.reach (catalog.seeds schema rootFacet) = .ok closure)
    (stand : NamesStand catalog schema closure) (synthesized : catalog.synthesis schema closure = .ok synthesis)
    {fault : CatalogFault} (failed : build catalog schema rootFacet = .error fault) :
    ∃ other, catalog.has other = true ∧ other ∉ catalog.types.map (·.name) ∧ other ∉ KeyedList.keys synthesis.types ∧
      fault = .unsupported ("graph." ++ other) none := by
  rw [build, reached, ok_bind] at failed
  obtain ⟨name, listed, refused⟩ := ofClosure_error synthesized failed
  obtain ⟨member, composite, _⟩ := mem_undisplaced.mp listed
  obtain ⟨type, found⟩ := Catalog.exists_find?_of_reach reached member composite
  obtain ⟨property, owned, unresolved⟩ := TypeTemplate.ofCatalog_error found refused
  have foreign := mt (stand.resolves_iff reached synthesized member composite found owned).mpr
    fun ⟨descriptor, shown⟩ => by cases shown.symm.trans unresolved
  push Not at foreign
  obtain ⟨other, refers, absent⟩ := foreign
  obtain ⟨named, known, apart⟩ := Catalog.aliasName?_eq_some refers
  refine ⟨other, known, apart, absent, ?_⟩
  rw [Descriptor.resolve_error unresolved, (DeclaredType.element_of_catalogName? named).1]
  rfl

/--
Where bases and mapped types are known by their own names, a bundle is built from all that reachability
admits, but for one kind of declared type: one that means a catalog type by another name, which no
derived type bears either. The fault then names such a declared type.
-/
theorem build_isOk_iff (reached : catalog.reach (catalog.seeds schema rootFacet) = .ok closure)
    (stand : NamesStand catalog schema closure) : ∃ synthesis, catalog.synthesis schema closure = .ok synthesis ∧
      ((∃ bundle, build catalog schema rootFacet = .ok bundle) ↔
        ∀ name ∈ undisplaced catalog synthesis closure, ∀ type, catalog.find? name = some type →
          ∀ property, property ∈ type.properties ∨ property ∈ catalog.propertiesOf type →
            ∀ other, catalog.aliasName? property.declaredType = some other → other ∈ KeyedList.keys synthesis.types) ∧
      ∀ fault, build catalog schema rootFacet = .error fault → ∃ other, catalog.has other = true ∧
        other ∉ catalog.types.map (·.name) ∧ other ∉ KeyedList.keys synthesis.types ∧
        fault = .unsupported ("graph." ++ other) none := by
  obtain ⟨synthesis, synthesized⟩ := Catalog.synthesis_isOk stand.mapped closure
  exact ⟨synthesis, synthesized, exists_build_iff reached stand synthesized,
    fun fault failed => build_error reached stand synthesized failed⟩

def renamed : Catalog where
  types := [⟨"facet", [⟨"p", "graph.aB", true⟩, ⟨"q", "graph.gone", true⟩], some "y"⟩, ⟨"y", [], none⟩]
  aliases := [("aB", "y")]
  names_distinct := by decide

/-- With the type of an entity and a key the other name is a derived one. -/
theorem build_isOk_iff_renamed : renamed.reach (renamed.seeds crowdedSchema "facet") = .ok ["facet", "y", "aB"] ∧
    ∃ synthesis, renamed.synthesis crowdedSchema ["facet", "y", "aB"] = .ok synthesis ∧
      KeyedList.keys synthesis.types = ["a", "aB", "gone"] ∧
      ∃ bundle, build renamed crowdedSchema "facet" = .ok bundle := by
  have reached : renamed.reach (renamed.seeds crowdedSchema "facet") = .ok ["facet", "y", "aB"] := by decide +kernel
  have standing : ∀ type ∈ renamed.types, renamed.find? type.name = some type ∧ renamed.isEnum type.name = false := by
    decide +kernel
  have view : (renamed.synthesis crowdedSchema ["facet", "y", "aB"]).map (fun synthesis => KeyedList.keys synthesis.types) =
      .ok ["a", "aB", "gone"] := by decide +kernel
  have only : ∀ type ∈ renamed.types, ∀ property, property ∈ type.properties ++ renamed.propertiesOf type →
      renamed.aliasName? property.declaredType ∈ [none, some "aB"] := by decide +kernel
  obtain ⟨synthesis, synthesized, succeeds, _⟩ :=
    build_isOk_iff reached (.of_types standing crowdedSchema ["facet", "y", "aB"])
  obtain ⟨_, same, names⟩ := map_eq_ok.mp view
  cases synthesized.symm.trans same
  refine ⟨reached, synthesis, synthesized, names, succeeds.mpr fun name _ type found property owned other refers => ?_⟩
  have listed := only type (Catalog.mem_types_of_find? found) property (List.mem_append.mpr owned)
  obtain rfl : other = "aB" := by simpa [refers] using listed
  simp [names]

/-- Without it the name is reachable all the same, and no bundle is built. -/
theorem build_renamed : renamed.reach (renamed.seeds { properties := [] } "facet") = .ok ["facet", "y", "aB"] ∧
    ¬ ∃ bundle, build renamed { properties := [] } "facet" = .ok bundle := by
  have refused : (build renamed { properties := [] } "facet").map (·.closure) = .error (.unsupported "graph.aB" none) := by
    decide +kernel
  refine ⟨by decide +kernel, ?_⟩
  rintro ⟨bundle, built⟩
  cases (map_eq_error.mp refused).symm.trans built

end Bundle

end ProfileConnector
