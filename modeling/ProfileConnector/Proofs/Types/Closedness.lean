import ProfileConnector.Catalog.Packaged
import ProfileConnector.Proofs.Types.Resolution

/-!
Bundles without loose ends. In a catalog whose types are known by their own names, what a field, a base
or an entity refers to has a declaration in the same bundle. The packaged catalog is such a catalog, and
its declared types are all known, so every schema has a bundle.
-/

namespace ProfileConnector

open Outcome

namespace Catalog

variable {catalog : Catalog} {owner : String} {property : CatalogProperty} {seeds : List String} {name : String}

/-! ## References -/

theorem referencedName_of_catalogName? (owner : String)
    (named : (DeclaredType.parse property.declaredType).catalogName? = some name) :
    catalog.referencedName owner property =
      if catalog.isStringLike (DeclaredType.parse property.declaredType).element then .ok none
      else .ok (if catalog.isEnum name || catalog.has name then some name else none) := by
  obtain ⟨qualified, apart⟩ := DeclaredType.qualifier_of_catalogName? named
  have simple : ((DeclaredType.parse property.declaredType).isScalar ||
      (DeclaredType.parse property.declaredType).qualifier.isNone) = false := by rw [apart, qualified]; rfl
  simp only [referencedName, simple, named, Bool.false_eq_true, if_false]

theorem referencedName_of_element {target : Option String}
    (admitted : catalog.referencedName owner property = .ok target)
    (other : catalog.isStringLike (DeclaredType.parse property.declaredType).element = false)
    (named : (DeclaredType.parse (DeclaredType.parse property.declaredType).element).catalogName? = some name)
    (known : catalog.isEnum name = true ∨ catalog.has name = true) : target = some name := by
  have nameless : ∀ scalar ∈ DeclaredType.supportedScalars, (DeclaredType.parse scalar).catalogName? = none := by
    decide
  rcases referencedName_ok admitted with scalar | text | ⟨written, declared⟩
  · rw [nameless _ scalar] at named
    cases named
  · rw [other] at text
    cases text
  · obtain rfl : written = name := Option.some.inj ((DeclaredType.parse_element declared).2.symm.trans named)
    rw [referencedName_of_catalogName? owner declared, other, if_neg Bool.false_ne_true] at admitted
    simpa [known] using admitted.symm

theorem isEnum_iff : catalog.isEnum name = true ↔ name ∈ KeyedList.keys catalog.enums := KeyedList.isSome_get?

/-- The declared type names a supported scalar, or something in the catalog by a name that is not another one's. -/
def isClear (catalog : Catalog) (declaredType : String) : Bool :=
  let declared := DeclaredType.parse declaredType
  match declared.catalogName? with
  | some name => !(KeyedList.keys catalog.aliases).contains name
  | none => declared.isScalar && DeclaredType.supportedScalars.contains declared.element

/-- Every type is known by its own name, and every property declares its type clearly. -/
structure Coherent (catalog : Catalog) : Prop where
  standing : ∀ type ∈ catalog.types, catalog.Standing type
  clear : ∀ type ∈ catalog.types, ∀ property ∈ type.properties, catalog.isClear property.declaredType = true

theorem referencedName_isOk (clear : catalog.isClear property.declaredType = true) (owner : String) :
    ∃ target, catalog.referencedName owner property = .ok target := by
  simp only [isClear] at clear
  cases named : (DeclaredType.parse property.declaredType).catalogName? with
  | none =>
    simp only [named, Bool.and_eq_true] at clear
    exact ⟨none, by simp only [referencedName, clear.1, clear.2, Bool.true_or, if_true]⟩
  | some name =>
    rw [referencedName_of_catalogName? owner named]
    split
    · exact ⟨none, rfl⟩
    · exact ⟨_, rfl⟩

theorem aliasName?_eq_none {declaredType : String} (clear : catalog.isClear declaredType = true) :
    catalog.aliasName? declaredType = none := by
  simp only [isClear] at clear
  simp only [aliasName?]
  split
  · rfl
  · rename_i name named
    simp only [named, Bool.not_eq_true', List.contains_eq_mem, decide_eq_false_iff_not] at clear
    have direct : catalog.resolve name = name := by
      rw [resolve, KeyedList.get?_eq_none clear, Option.getD_none]
    split
    · rfl
    · rename_i foreign
      simp only [Bool.or_eq_true, not_or] at foreign
      rw [has, find?, direct, if_neg foreign.2]

theorem Standing.resolve {type : CatalogType} (stands : catalog.Standing type) : catalog.resolve type.name = type.name :=
  (name_of_find? stands.1).symm

theorem has_of_listed (standing : ∀ type ∈ catalog.types, catalog.Standing type)
    (listed : name ∈ catalog.types.map (·.name)) : catalog.has name = true ∧ catalog.resolve name = name := by
  obtain ⟨type, inside, rfl⟩ := List.mem_map.mp listed
  have stands := standing type inside
  exact ⟨has_of_find? stands.1, stands.resolve⟩

theorem resolve_resolve (standing : ∀ type ∈ catalog.types, catalog.Standing type) (known : catalog.has name = true) :
    catalog.resolve (catalog.resolve name) = catalog.resolve name ∧ catalog.has (catalog.resolve name) = true ∧
      catalog.isEnum (catalog.resolve name) = false := by
  obtain ⟨type, found⟩ := Option.isSome_iff_exists.mp known
  have inside := mem_types_of_find? found
  obtain ⟨present, same⟩ := has_of_listed standing (List.mem_map.mpr ⟨type, inside, rfl⟩)
  rw [← name_of_find? found]
  exact ⟨same, present, (standing type inside).2⟩

theorem Reachable.known (standing : ∀ type ∈ catalog.types, catalog.Standing type)
    (reachable : catalog.Reachable seeds name) : catalog.isEnum name = true ∨ catalog.has name = true := by
  cases reachable with
  | seed _ known => exact known.symm
  | step _ leads =>
    cases leads with
    | base _ _ _ _ known => exact Or.inr (resolve_resolve standing known).2.1
    | property _ _ _ refers => exact referencedName_known refers

theorem Coherent.reach_isOk (coherent : catalog.Coherent) (seeds : List String) :
    ∃ names, catalog.reach seeds = .ok names := by
  cases outcome : catalog.reach seeds with
  | ok names => exact ⟨names, rfl⟩
  | error fault =>
    obtain ⟨name, reachable, ⟨_, type, found, property, own, refused⟩ | ⟨composite, absent, _⟩⟩ := reach_error outcome
    · obtain ⟨target, admitted⟩ := referencedName_isOk (coherent.clear type (mem_types_of_find? found) property own) name
      cases admitted.symm.trans refused
    · rcases reachable.known coherent.standing with enumeration | known
      · simp [composite] at enumeration
      · simp [has, absent] at known

end Catalog

/-! ## Templates -/

theorem AliasTable.get?_build {catalog : Catalog} {derived : List DerivedType} {name : String} {names : DisplayNames}
    (found : KeyedList.get? name (build catalog derived) = some names) : names = DisplayNames.ofName name := by
  rw [build, KeyedList.get?_ofPairs] at found
  have listed := List.mem_reverse.mp (KeyedList.mem_of_get? found)
  obtain ⟨other, _, same⟩ := List.mem_map.mp listed
  cases same
  rfl

namespace TypeTemplate

variable {catalog : Catalog} {aliases : AliasTable} {name : String} {template : TypeTemplate}

theorem Declares.shows {type : CatalogType} (declares : Declares catalog aliases name type template)
    {field : DeclaredField} (member : field ∈ template.fields ∨ field ∈ template.inherited) :
    ∃ property, (property ∈ type.properties ∨ property ∈ catalog.propertiesOf type) ∧
      Shows catalog aliases property field.toInfo := by
  rcases member with listed | listed
  · obtain ⟨property, inside, shows⟩ := exists_left (DeclaredField.resolveAll_shows declares.fields) listed
    exact ⟨property, Or.inl inside, shows⟩
  · obtain ⟨property, inside, shows⟩ := exists_left (DeclaredField.resolveAll_shows declares.inherited) listed
    exact ⟨property, Or.inr (List.mem_of_mem_filter inside), shows⟩

theorem ofDerived_shows {type : DerivedType} (made : ofDerived catalog aliases type = .ok template) :
    template.names = (KeyedList.get? type.name aliases).getD (DisplayNames.ofName type.name) ∧
    template.baseNames = none ∧ template.inherited = [] ∧
    ∀ field ∈ template.fields, ∃ property ∈ type.declarations, Shows catalog aliases property field.toInfo := by
  obtain ⟨fields, resolved, result⟩ := bind_eq_ok.mp made
  cases result
  exact ⟨rfl, rfl, rfl, fun field listed => exists_left (DeclaredField.resolveAll_shows resolved) listed⟩

end TypeTemplate

/-! ## Bundles -/

namespace Bundle

variable {catalog : Catalog} {schema : Schema} {rootFacet : String} {bundle : Bundle}

/-- What an element refers to has a declaration in the bundle. -/
def Holds (bundle : Bundle) (ref : ElementRef) : Prop :=
  (ref.kind = .composite → ref.name ∈ KeyedList.keys bundle.typeMap) ∧
    (ref.kind = .enumeration → ∃ enum ∈ bundle.enums, enum.name = ref.name)

/-- What the templates of a bundle mention has a declaration in the bundle. -/
structure Closed (bundle : Bundle) : Prop where
  distinct : (bundle.templates.map (·.name)).Nodup
  types : KeyedList.keys bundle.typeMap = bundle.templates.map (·.name)
  elements : ∀ template ∈ bundle.templates, ∀ field, field ∈ template.fields ∨ field ∈ template.inherited →
    bundle.Holds field.descriptor.element.ref
  bases : ∀ template ∈ bundle.templates, ∀ names, template.baseNames = some names →
    ∃ base ∈ bundle.templates, base.names = names

namespace Made

variable {synthesis : Synthesis} {declared derived : List TypeTemplate}
variable (made : Made catalog schema rootFacet bundle synthesis declared derived)

include made

theorem leads_closed {source name : String} (member : source ∈ bundle.closure) (leads : catalog.Leads source name) :
    name ∈ bundle.closure := by
  obtain ⟨explored, complete, _⟩ := Catalog.reach_ok made.reached
  exact complete name (.step (explored.reachable source member) leads)

theorem aliases_eq : bundle.aliases = aliasesOf catalog synthesis := by
  rw [made.aliases, made.types, aliasesOf]

theorem mem_derived_names {name : String} :
    name ∈ bundle.derived.map (·.name) ↔ name ∈ KeyedList.keys synthesis.types := by
  rw [made.types, DerivedFields.names_toTypes]

theorem mem_keys_of_alias {name : String} (present : name ∈ KeyedList.keys bundle.aliases)
    (catalogued : name ∈ catalog.types.map (·.name) → name ∈ KeyedList.keys bundle.typeMap) :
    name ∈ KeyedList.keys bundle.typeMap := by
  rw [made.aliases_eq, mem_keys_aliasesOf] at present
  rcases present with listed | fromDerived
  · exact catalogued listed
  · exact made.mem_keys_typeMap.mpr (Or.inr (made.mem_derived_names.mpr fromDerived))

theorem holds_of_found {text : String} {element : Element} (found : Element.Found catalog bundle.aliases text element)
    (enumerations : ∀ name, catalog.isStringLike text = false → (DeclaredType.parse text).catalogName? = some name →
      catalog.isEnum name = true → name ∈ bundle.closure)
    (composites : ∀ name, catalog.isStringLike text = false → (DeclaredType.parse text).catalogName? = some name →
      name ∈ catalog.types.map (·.name) → name ∈ KeyedList.keys bundle.typeMap) : bundle.Holds element.ref := by
  cases found with
  | text => exact ⟨nofun, nofun⟩
  | @enumeration name other named listed =>
    refine ⟨nofun, fun _ => ⟨EnumTemplate.ofName catalog name, ?_, rfl⟩⟩
    rw [made.enums]
    exact List.mem_map.mpr ⟨name, List.mem_filter.mpr ⟨enumerations name other named listed, listed⟩, rfl⟩
  | @composite name names other named plain known =>
    refine ⟨fun _ => ?_, nofun⟩
    exact made.mem_keys_of_alias (KeyedList.mem_keys_of_get? known) (composites name other named)
  | scalar listed => simp [Holds, Element.kind_of_mem_scalars listed]

theorem names_of_mem {template : TypeTemplate} (member : template ∈ bundle.templates) :
    template.names = DisplayNames.ofName template.name := by
  have shown (name : String) : (KeyedList.get? name bundle.aliases).getD (DisplayNames.ofName name) =
      DisplayNames.ofName name := by
    cases found : KeyedList.get? name bundle.aliases with
    | none => rfl
    | some names =>
      rw [made.aliases] at found
      exact AliasTable.get?_build found
  rcases List.mem_append.mp (made.templates ▸ member) with plain | fromDerived
  · obtain ⟨_, type, declares⟩ := made.declares_of_mem plain
    rw [declares.names, shown]
  · obtain ⟨type, listed, own⟩ := (mem_of_mapM made.derivations template).mp fromDerived
    rw [(TypeTemplate.ofDerived_shows own).1, (TypeTemplate.ofDerived_ok own (made.fields_distinct listed)).1, shown]

theorem shows_of_mem {template : TypeTemplate} (member : template ∈ bundle.templates) {field : DeclaredField}
    (inside : field ∈ template.fields ∨ field ∈ template.inherited) :
    ∃ property, Shows catalog bundle.aliases property field.toInfo := by
  rcases List.mem_append.mp (made.templates ▸ member) with plain | fromDerived
  · obtain ⟨_, type, declares⟩ := made.declares_of_mem plain
    obtain ⟨property, _, shows⟩ := declares.shows inside
    exact ⟨property, shows⟩
  · obtain ⟨type, _, own⟩ := (mem_of_mapM made.derivations template).mp fromDerived
    obtain ⟨_, _, alone, shown⟩ := TypeTemplate.ofDerived_shows own
    rw [alone, or_iff_left List.not_mem_nil] at inside
    obtain ⟨property, _, shows⟩ := shown field inside
    exact ⟨property, shows⟩

theorem exists_base {name : String} (present : name ∈ KeyedList.keys bundle.typeMap) :
    ∃ base ∈ bundle.templates, base.names = DisplayNames.ofName name := by
  rw [made.keys_typeMap] at present
  obtain ⟨base, member, rfl⟩ := List.mem_map.mp present
  exact ⟨base, member, made.names_of_mem member⟩

variable (standing : ∀ type ∈ catalog.types, catalog.Standing type)

include standing

theorem mem_keys_of_listed {name : String} (member : name ∈ bundle.closure) (listed : name ∈ catalog.types.map (·.name)) :
    name ∈ KeyedList.keys bundle.typeMap := by
  obtain ⟨type, inside, rfl⟩ := List.mem_map.mp listed
  exact made.mem_keys_typeMap.mpr (Or.inl ⟨member, (standing type inside).2⟩)

theorem holds_declared {template : TypeTemplate} (member : template ∈ declared) {field : DeclaredField}
    (inside : field ∈ template.fields ∨ field ∈ template.inherited) : bundle.Holds field.descriptor.element.ref := by
  obtain ⟨listed, type, declares⟩ := made.declares_of_mem member
  obtain ⟨reached, composite, _⟩ := made.mem_declaredNames.mp listed
  obtain ⟨property, owned, shows⟩ := declares.shows inside
  obtain ⟨owner, known, ancestor, plain, stands, declaring, target, admitted⟩ :=
    (NamesStand.of_types standing schema bundle.closure).admitted made.reached reached composite
      (Catalog.get_eq_ok.mp declares.known) owned
  -- What a declared type names is a reference, and the closure follows all references of its types.
  have leads {other : String}
      (spelled : catalog.isStringLike (DeclaredType.parse property.declaredType).element = false)
      (named : (DeclaredType.parse (DeclaredType.parse property.declaredType).element).catalogName? = some other)
      (present : catalog.isEnum other = true ∨ catalog.has other = true) : other ∈ bundle.closure := by
    rw [Catalog.referencedName_of_element admitted spelled named present] at admitted
    exact made.leads_closed known (.property plain stands declaring admitted)
  refine made.holds_of_found (Descriptor.found_of_resolve shows.descriptor)
    (fun other spelled named enumeration => leads spelled named (Or.inl enumeration)) ?_
  exact fun other spelled named listed => made.mem_keys_of_listed standing
    (leads spelled named (Or.inr (Catalog.has_of_listed standing listed).1)) listed

theorem exists_base_declared {template : TypeTemplate} (member : template ∈ declared) {names : DisplayNames}
    (based : template.baseNames = some names) : ∃ base ∈ bundle.templates, base.names = names := by
  obtain ⟨listed, type, declares⟩ := made.declares_of_mem member
  obtain ⟨reached, composite, _⟩ := made.mem_declaredNames.mp listed
  have found := Catalog.get_eq_ok.mp declares.known
  rw [declares.baseNames, Option.bind_eq_some_iff] at based
  obtain ⟨base, written, based⟩ := based
  split at based
  · cases based
  rename_i nonempty
  have present := KeyedList.mem_keys_of_get? based
  rw [made.aliases] at based
  rw [AliasTable.get?_build based]
  refine made.exists_base (made.mem_keys_of_alias present fun catalogued => ?_)
  obtain ⟨known, same⟩ := Catalog.has_of_listed standing catalogued
  have leads : catalog.Leads template.name (catalog.resolve base) :=
    .base composite found written (by simpa using nonempty) known
  exact made.mem_keys_of_listed standing (made.leads_closed reached (same ▸ leads)) catalogued

omit standing in
theorem closed_derived (enumerations : ∀ type ∈ bundle.derived, catalog.isEnum type.name = true → type.name ∈ bundle.closure)
    {template : TypeTemplate} (member : template ∈ derived) :
    template.baseNames = none ∧ ∀ field, field ∈ template.fields ∨ field ∈ template.inherited →
      bundle.Holds field.descriptor.element.ref := by
  obtain ⟨type, listed, own⟩ := (mem_of_mapM made.derivations template).mp member
  obtain ⟨_, bare, alone, shown⟩ := TypeTemplate.ofDerived_shows own
  refine ⟨bare, fun field inside => ?_⟩
  rw [alone, or_iff_left List.not_mem_nil] at inside
  obtain ⟨property, declaring, shows⟩ := shown field inside
  have sound := Catalog.sound_synthesis made.synthesized
  have found := Descriptor.found_of_resolve shows.descriptor
  rcases sound.declaredType (made.types ▸ listed) declaring with text | ⟨nested, present, filled, spelled⟩
  · have nameless : (DeclaredType.parse (DeclaredType.parse property.declaredType).element).catalogName? = none := by
      rw [text]
      decide
    refine made.holds_of_found found ?_ ?_ <;> intro other _ named <;> cases nameless.symm.trans named
  · have only {other : String}
        (named : (DeclaredType.parse (DeclaredType.parse property.declaredType).element).catalogName? = some other) :
        nested = other := by
      rw [spelled] at named
      simpa [DeclaredType.parse_qualified filled, DeclaredType.catalogName?] using named
    have inDerived := made.mem_derived_names.mpr present
    refine made.holds_of_found found (fun other _ named enumeration => ?_) (fun other _ named _ => ?_)
    · obtain ⟨nestedType, inside, same⟩ := List.mem_map.mp inDerived
      obtain rfl := only named
      exact same ▸ enumerations nestedType inside (same ▸ enumeration)
    · exact only named ▸ made.mem_keys_typeMap.mpr (Or.inr inDerived)

end Made

/--
In a catalog whose types are known by their own names every bundle is closed, unless a derived type has
the name of an enumeration that is not reached.
-/
theorem closed_of_build (standing : ∀ type ∈ catalog.types, catalog.Standing type)
    (built : build catalog schema rootFacet = .ok bundle)
    (enumerations : ∀ type ∈ bundle.derived, catalog.isEnum type.name = true → type.name ∈ bundle.closure) :
    bundle.Closed := by
  obtain ⟨synthesis, declared, derived, made⟩ := build_ok built
  refine ⟨made.distinct, made.keys_typeMap, fun template member => ?_, fun template member names based => ?_⟩
  all_goals rcases List.mem_append.mp (made.templates ▸ member) with plain | fromDerived
  · exact fun field inside => made.holds_declared standing plain inside
  · exact (made.closed_derived enumerations fromDerived).2
  · exact made.exists_base_declared standing plain based
  · rw [(made.closed_derived enumerations fromDerived).1] at based
    cases based

/-- Every entity that is mapped has a type: a catalog type under its own name, or a derived one. -/
theorem isSome_infoFor? (standing : ∀ type ∈ catalog.types, catalog.Standing type)
    (built : build catalog schema rootFacet = .ok bundle) {property : Property} (listed : property ∈ schema.properties)
    {mapping : EntityMapping} (mapped : property.entity = some mapping) (plain : property.type.isPrincipal = false) :
    (bundle.infoFor? mapping.entity).isSome := by
  obtain ⟨synthesis, declared, derived, made⟩ := build_ok built
  have given {name : String} (present : name ∈ KeyedList.keys bundle.typeMap)
      (asked : name = mapping.entity ∨ name = catalog.resolve mapping.entity) :
      (bundle.infoFor? mapping.entity).isSome := by
    rw [← KeyedList.isSome_get?] at present
    unfold infoFor?
    split
    · rfl
    · rename_i absent
      rcases asked with rfl | rfl
      · simp [absent] at present
      · rwa [made.source]
  -- An entity that the catalog lacks is derived; any other is a seed, so the closure holds its type.
  cases found : catalog.find? mapping.entity with
  | none =>
    obtain ⟨fields, grouped⟩ := Schema.exists_entityFields listed mapped plain
    obtain ⟨trees, merged, _⟩ := Catalog.synthesis_ok made.synthesized
    have contributed := Catalog.mem_keys_of_contribution merged made.synthesized
      (Catalog.mem_contributions merged found grouped)
    exact given (made.mem_keys_typeMap.mpr (Or.inr (made.mem_derived_names.mpr contributed))) (Or.inl rfl)
  | some type =>
    have known := Catalog.has_of_find? found
    obtain ⟨same, present, plain⟩ := Catalog.resolve_resolve standing known
    have seeded : catalog.resolve mapping.entity ∈ catalog.seeds schema rootFacet := by
      rw [Catalog.seeds, Catalog.mem_foldl_adding]
      refine Or.inr (List.mem_append_right _ (List.mem_cons_of_mem _ ?_))
      exact List.mem_filterMap.mpr ⟨property, listed, by simp [mapped, known]⟩
    have reached := (Catalog.reach_ok made.reached).2.1 _ (.seed seeded (Or.inl (by rw [same]; exact present)))
    rw [same] at reached
    exact given (made.mem_keys_typeMap.mpr (Or.inl ⟨reached, plain⟩)) (Or.inr rfl)

theorem build_isOk (coherent : catalog.Coherent) (schema : Schema) (rootFacet : String) :
    ∃ bundle, build catalog schema rootFacet = .ok bundle := by
  obtain ⟨closure, reached⟩ := coherent.reach_isOk (catalog.seeds schema rootFacet)
  have stand := NamesStand.of_types coherent.standing schema closure
  obtain ⟨synthesis, synthesized⟩ := Catalog.synthesis_isOk stand.mapped closure
  refine (exists_build_iff reached stand synthesized).mpr fun name undisplaced type found property owned other refers => ?_
  obtain ⟨member, composite, _⟩ := mem_undisplaced.mp undisplaced
  obtain ⟨_, _, ancestor, _, stands, declaring, _⟩ := stand.admitted reached member composite found owned
  rw [Catalog.aliasName?_eq_none (coherent.clear ancestor (Catalog.mem_types_of_find? stands) property declaring)] at refers
  cases refers

end Bundle

/-! ## The packaged catalog -/

namespace Catalog

theorem coherent_packaged : packaged.Coherent where
  standing := by
    have each : ∀ type ∈ packaged.types, packaged.find? type.name = some type ∧ packaged.isEnum type.name = false := by
      decide +kernel
    exact each
  clear type inside property own := by
    -- Most properties are texts, and need not be taken apart one by one.
    have text : packaged.isClear "Edm.String" = true := by decide +kernel
    have each : ∀ type ∈ packaged.types, ∀ property ∈ type.properties,
        property.declaredType = "Edm.String" ∨ packaged.isClear property.declaredType = true := by decide +kernel
    exact (each type inside property own).elim (fun same => same ▸ text) id

theorem reachable_enum (schema : Schema) (rootFacet : String) {name : String} (listed : packaged.isEnum name = true) :
    packaged.Reachable (packaged.seeds schema rootFacet) name := by
  have labelled (label : String) (known : label ∈ PeopleLabel.all.map (·.catalogType))
      (typed : label ∈ packaged.types.map (·.name)) : packaged.Reachable (packaged.seeds schema rootFacet) label := by
    obtain ⟨present, same⟩ := has_of_listed coherent_packaged.standing typed
    have seeded : label ∈ packaged.seeds schema rootFacet :=
      mem_foldl_adding.mpr (Or.inr (List.mem_append_left _ known))
    exact same ▸ .seed seeded (Or.inl (same.symm ▸ present))
  have leads {source target : String} (found : (packaged.successors source).map (·.contains target) = .ok true) :
      packaged.Leads source target := by
    obtain ⟨targets, successors, inside⟩ := map_eq_ok.mp found
    exact ((successors_ok successors).1 target).mp (List.contains_iff_mem.mp inside)
  have account := labelled "userAccountInformation" (by decide +kernel) (by decide +kernel)
  have position := labelled "workPosition" (by decide +kernel) (by decide +kernel)
  have facet : packaged.Leads "userAccountInformation" "itemFacet" := leads (by decide +kernel)
  have person : packaged.Leads "workPosition" "relatedPerson" := leads (by decide +kernel)
  have known := isEnum_iff.mp listed
  simp only [KeyedList.keys, packaged, packagedSnapshot, packagedEnums, List.map_cons, List.map_nil, List.mem_cons,
    List.not_mem_nil, or_false] at known
  rcases known with rfl | rfl | rfl
  · exact .step (.step position person) (leads (by decide +kernel))
  · exact .step (.step account facet) (leads (by decide +kernel))
  · exact .step account (leads (by decide +kernel))

end Catalog

namespace Bundle

/--
With the packaged catalog every schema and every root facet have a bundle. It is closed, and every entity
that a property without principals is mapped to has a type in it.
-/
theorem build_packaged (schema : Schema) (rootFacet : String) :
    ∃ bundle, build Catalog.packaged schema rootFacet = .ok bundle ∧ bundle.Closed ∧
      ∀ property ∈ schema.properties, ∀ mapping, property.entity = some mapping →
        property.type.isPrincipal = false → (bundle.infoFor? mapping.entity).isSome := by
  have coherent := Catalog.coherent_packaged
  obtain ⟨bundle, built⟩ := build_isOk coherent schema rootFacet
  obtain ⟨_, _, _, made⟩ := build_ok built
  have complete := (Catalog.reach_ok made.reached).2.1
  refine ⟨bundle, built, closed_of_build coherent.standing built fun type _ enumeration => ?_, ?_⟩
  · exact complete type.name (Catalog.reachable_enum schema rootFacet enumeration)
  · exact fun property listed mapping mapped plain => isSome_infoFor? coherent.standing built listed mapped plain

end Bundle

end ProfileConnector
