import ProfileConnector.Proofs.Catalog.Reach
import ProfileConnector.Proofs.Types.Shape
import ProfileConnector.Proofs.Types.Synthesis

/-!
What bundles are made of. Catalog types and derived types share one namespace; a name that a derived
type bears stands for the derived type, and every other name of the closure for its catalog type.
-/

namespace ProfileConnector.Bundle

open Outcome

variable {catalog : Catalog} {schema : Schema} {rootFacet : String} {bundle : Bundle}

def declaredNames (bundle : Bundle) : List String :=
  bundle.closure.filter fun name => !bundle.catalog.isEnum name && !(bundle.derived.map (·.name)).contains name

/-- A bundle, the synthesis it comes from and its templates. -/
structure Made (catalog : Catalog) (schema : Schema) (rootFacet : String) (bundle : Bundle) (synthesis : Synthesis)
    (declared derived : List TypeTemplate) : Prop where
  source : bundle.catalog = catalog
  reached : catalog.reach (catalog.seeds schema rootFacet) = .ok bundle.closure
  synthesized : catalog.synthesis schema bundle.closure = .ok synthesis
  types : bundle.derived = synthesis.types.toTypes
  aliases : bundle.aliases = AliasTable.build catalog bundle.derived
  declarations : bundle.declaredNames.mapM (TypeTemplate.ofCatalog catalog bundle.aliases) = .ok declared
  derivations : bundle.derived.mapM (TypeTemplate.ofDerived catalog bundle.aliases) = .ok derived
  templates : bundle.templates = declared ++ derived
  typeMap : bundle.typeMap = KeyedList.ofPairs (bundle.templates.map fun template => (template.name, template.toInfo))
  enums : bundle.enums = (bundle.closure.filter catalog.isEnum).map (EnumTemplate.ofName catalog)

theorem build_ok (built : build catalog schema rootFacet = .ok bundle) :
    ∃ synthesis declared derived, Made catalog schema rootFacet bundle synthesis declared derived := by
  obtain ⟨closure, reached, made⟩ := bind_eq_ok.mp built
  obtain ⟨synthesis, synthesized, made⟩ := bind_eq_ok.mp made
  obtain ⟨declared, declarations, made⟩ := bind_eq_ok.mp made
  obtain ⟨derived, derivations, result⟩ := bind_eq_ok.mp made
  cases result
  exact ⟨synthesis, declared, derived, rfl, reached, synthesized, rfl, rfl, declarations, derivations, rfl, rfl, rfl⟩

namespace Made

variable {synthesis : Synthesis} {declared derived : List TypeTemplate}

theorem derived_distinct (made : Made catalog schema rootFacet bundle synthesis declared derived) :
    (bundle.derived.map (·.name)).Nodup := by
  rw [made.types, DerivedFields.names_toTypes]
  exact (Catalog.sound_synthesis made.synthesized).distinct

theorem fields_distinct (made : Made catalog schema rootFacet bundle synthesis declared derived) {type : DerivedType}
    (member : type ∈ bundle.derived) : (type.fields.map (·.name)).Nodup := by
  have sound := Catalog.sound_synthesis made.synthesized
  rw [← sound.fieldsOf_of_mem (made.types ▸ member)]
  exact sound.names type.name

theorem mem_declaredNames (made : Made catalog schema rootFacet bundle synthesis declared derived) {name : String} :
    name ∈ bundle.declaredNames ↔
      name ∈ bundle.closure ∧ catalog.isEnum name = false ∧ name ∉ bundle.derived.map (·.name) := by
  simp only [declaredNames, List.mem_filter, made.source, Bool.and_eq_true, Bool.not_eq_true', List.contains_eq_mem,
    decide_eq_false_iff_not]

theorem declares_of_mem (made : Made catalog schema rootFacet bundle synthesis declared derived)
    {template : TypeTemplate} (member : template ∈ declared) : template.name ∈ bundle.declaredNames ∧
      ∃ type, TypeTemplate.Declares catalog bundle.aliases template.name type template := by
  obtain ⟨name, listed, own⟩ := (mem_of_mapM made.declarations template).mp member
  obtain ⟨type, declares⟩ := TypeTemplate.declares_of_ofCatalog own
  obtain rfl := declares.named
  exact ⟨listed, type, declares⟩

theorem mem_declared (made : Made catalog schema rootFacet bundle synthesis declared derived)
    {template : TypeTemplate} (member : template ∈ declared) :
    template.name ∈ bundle.declaredNames ∧ template.isDerived = false := by
  obtain ⟨listed, _, declares⟩ := made.declares_of_mem member
  exact ⟨listed, declares.plain⟩

theorem mem_derived (made : Made catalog schema rootFacet bundle synthesis declared derived)
    {template : TypeTemplate} (member : template ∈ derived) :
    template.name ∈ bundle.derived.map (·.name) ∧ template.isDerived = true := by
  obtain ⟨type, listed, own⟩ := (mem_of_mapM made.derivations template).mp member
  obtain ⟨same, apart, _⟩ := TypeTemplate.ofDerived_ok own (made.fields_distinct listed)
  exact ⟨List.mem_map.mpr ⟨type, listed, same.symm⟩, apart⟩

theorem names_eq (made : Made catalog schema rootFacet bundle synthesis declared derived) :
    bundle.templates.map (·.name) = bundle.declaredNames ++ bundle.derived.map (·.name) := by
  have own : declared.map (·.name) = bundle.declaredNames.map id :=
    map_of_mapM made.declarations fun name _ template own => (TypeTemplate.ofCatalog_ok own).1
  have others : derived.map (·.name) = bundle.derived.map (·.name) :=
    map_of_mapM made.derivations fun type listed template own =>
      (TypeTemplate.ofDerived_ok own (made.fields_distinct listed)).1
  rw [made.templates, List.map_append, own, others, List.map_id]

theorem distinct (made : Made catalog schema rootFacet bundle synthesis declared derived) :
    (bundle.templates.map (·.name)).Nodup := by
  rw [made.names_eq, List.nodup_append]
  refine ⟨(Catalog.reach_ok made.reached).1.distinct.filter _, made.derived_distinct, ?_⟩
  rintro name plain _ fromDerived rfl
  have apart := (List.mem_filter.mp plain).2
  simp [fromDerived] at apart

theorem named_distinct (made : Made catalog schema rootFacet bundle synthesis declared derived) :
    (KeyedList.keys (bundle.templates.map fun template => (template.name, template.toInfo))).Nodup := by
  simpa [KeyedList.keys, Function.comp_def] using made.distinct

theorem keys_typeMap (made : Made catalog schema rootFacet bundle synthesis declared derived) :
    KeyedList.keys bundle.typeMap = bundle.templates.map (·.name) := by
  rw [made.typeMap, KeyedList.ofPairs_eq made.named_distinct]
  simp [KeyedList.keys, Function.comp_def]

theorem mem_keys_typeMap (made : Made catalog schema rootFacet bundle synthesis declared derived) {name : String} :
    name ∈ KeyedList.keys bundle.typeMap ↔
      (name ∈ bundle.closure ∧ catalog.isEnum name = false) ∨ name ∈ bundle.derived.map (·.name) := by
  rw [made.keys_typeMap, made.names_eq, List.mem_append, made.mem_declaredNames]
  by_cases fromDerived : name ∈ bundle.derived.map (·.name) <;> simp [fromDerived]

theorem get?_typeMap (made : Made catalog schema rootFacet bundle synthesis declared derived)
    {template : TypeTemplate} (member : template ∈ bundle.templates) :
    KeyedList.get? template.name bundle.typeMap = some template.toInfo := by
  rw [made.typeMap, KeyedList.ofPairs_eq made.named_distinct, KeyedList.get?_eq_some made.named_distinct]
  exact List.mem_map.mpr ⟨template, member, rfl⟩

theorem get?_derived (made : Made catalog schema rootFacet bundle synthesis declared derived) {type : DerivedType}
    (listed : type ∈ bundle.derived) :
    ∃ template ∈ derived, template.name = type.name ∧
      KeyedList.get? type.name bundle.typeMap = some template.toInfo ∧
      Shapes catalog bundle.aliases type.declarations template.toInfo := by
  obtain ⟨template, inside, own⟩ := mapM_total made.derivations listed
  obtain ⟨same, _, shapes⟩ := TypeTemplate.ofDerived_ok own (made.fields_distinct listed)
  have member : template ∈ bundle.templates := made.templates ▸ List.mem_append_right declared inside
  exact ⟨template, inside, same, same ▸ made.get?_typeMap member, shapes⟩

end Made

/--
In every bundle a composite name of the closure that no derived type bears stands for its catalog
type: for just its properties, the inherited ones among them, each with its own declared type
resolved, and for a template that is not derived. A name that a derived type bears stands for the
fields of that type, and its templates are derived.
-/
theorem build_shape (built : build catalog schema rootFacet = .ok bundle) {name : String}
    (member : name ∈ bundle.closure) (composite : catalog.isEnum name = false) :
    ((∀ type ∈ bundle.derived, type.name ≠ name) → ∃ properties info template,
      catalog.allProperties name = .ok properties ∧ KeyedList.get? name bundle.typeMap = some info ∧
        Shapes catalog bundle.aliases properties info ∧
        template ∈ bundle.templates ∧ template.name = name ∧ template.isDerived = false) ∧
    (∀ type ∈ bundle.derived, type.name = name →
      (∃ info, KeyedList.get? name bundle.typeMap = some info ∧
        Shapes catalog bundle.aliases type.declarations info) ∧
      ∀ template ∈ bundle.templates, template.name = name → template.isDerived = true) := by
  obtain ⟨synthesis, declared, derived, made⟩ := build_ok built
  constructor
  · intro apart
    have listed : name ∈ bundle.declaredNames := by
      simp only [declaredNames, List.mem_filter, made.source, composite]
      refine ⟨member, by simpa using fun type listed same => apart type listed same⟩
    obtain ⟨template, inside, own⟩ := mapM_total made.declarations listed
    obtain ⟨rfl, plain, properties, all, shapes⟩ := TypeTemplate.ofCatalog_ok own
    have template_mem : template ∈ bundle.templates := made.templates ▸ List.mem_append_left derived inside
    exact ⟨properties, template.toInfo, template, all, made.get?_typeMap template_mem, shapes, template_mem, rfl, plain⟩
  · rintro type listed rfl
    obtain ⟨template, _, _, found, shapes⟩ := made.get?_derived listed
    refine ⟨⟨template.toInfo, found, shapes⟩, ?_⟩
    intro other other_mem named
    rcases List.mem_append.mp (made.templates ▸ other_mem) with plain | fromDerived
    · -- A declared template has no name of a derived type.
      have clear := (List.mem_filter.mp (made.mem_declared plain).1).2
      simp only [named, Bool.and_eq_true, Bool.not_eq_true', List.contains_eq_mem, decide_eq_false_iff_not] at clear
      exact absurd (List.mem_map.mpr ⟨type, listed, rfl⟩) clear.2
    · exact (made.mem_derived fromDerived).2

def crowded : Catalog where
  types := [
    ⟨"aB", [⟨"p", "Edm.String", true⟩], none⟩,
    ⟨"facet", [⟨"own", "Collection(graph.aB)", true⟩, ⟨"p", "Edm.Int64", false⟩], some "aB"⟩]
  names_distinct := by decide

def crowdedSchema : Schema where
  properties := [{ name := "q", type := .string, entity := some ⟨"a", [⟨"b.c", { headers := ["x"] }⟩]⟩ }]

theorem crowded_bundle : ∃ bundle, build crowded crowdedSchema "facet" = .ok bundle ∧
    bundle.closure = ["facet", "aB"] ∧ bundle.derived.map (·.name) = ["a", "aB"] ∧
    (KeyedList.get? "aB" bundle.typeMap).map (fun info => KeyedList.keys info.properties) = some ["c"] := by
  have view : (build crowded crowdedSchema "facet").map (fun bundle => (bundle.closure, bundle.derived.map (·.name),
      (KeyedList.get? "aB" bundle.typeMap).map fun info => KeyedList.keys info.properties)) =
      .ok (["facet", "aB"], ["a", "aB"], some ["c"]) := by decide +kernel
  obtain ⟨bundle, built, shown⟩ := map_eq_ok.mp view
  simp only [Prod.mk.injEq] at shown
  exact ⟨bundle, built, shown⟩

theorem build_shape_facet : ∃ bundle, build crowded crowdedSchema "facet" = .ok bundle ∧
    "facet" ∈ bundle.closure ∧ crowded.isEnum "facet" = false ∧ (∀ type ∈ bundle.derived, type.name ≠ "facet") ∧
    ∃ properties info template, crowded.allProperties "facet" = .ok properties ∧
      KeyedList.get? "facet" bundle.typeMap = some info ∧ Shapes crowded bundle.aliases properties info ∧
      template ∈ bundle.templates ∧ template.name = "facet" ∧ template.isDerived = false := by
  obtain ⟨bundle, built, closure, derived, _⟩ := crowded_bundle
  have member : "facet" ∈ bundle.closure := by simp [closure]
  have apart : ∀ type ∈ bundle.derived, type.name ≠ "facet" := by
    intro type listed same
    have named : type.name ∈ bundle.derived.map (·.name) := List.mem_map.mpr ⟨type, listed, rfl⟩
    simp [derived, same] at named
  exact ⟨bundle, built, member, rfl, apart, (build_shape built member rfl).1 apart⟩

/-- The type of an entity and a key displaces the catalog type of that name. -/
theorem build_displaced : ∃ bundle, build crowded crowdedSchema "facet" = .ok bundle ∧
    "aB" ∈ bundle.closure ∧ crowded.isEnum "aB" = false ∧
    ¬ ∃ properties info, crowded.allProperties "aB" = .ok properties ∧
      KeyedList.get? "aB" bundle.typeMap = some info ∧ Shapes crowded bundle.aliases properties info := by
  obtain ⟨bundle, built, closure, _, displaced⟩ := crowded_bundle
  refine ⟨bundle, built, by simp [closure], rfl, ?_⟩
  rintro ⟨properties, info, all, found, shapes⟩
  have declared : crowded.allProperties "aB" = .ok [⟨"p", "Edm.String", true⟩] := by decide +kernel
  cases all.symm.trans declared
  have keys : KeyedList.keys info.properties = ["c"] := by simpa [found] using displaced
  have own := (shapes.names "p").mpr (by simp)
  simp [keys] at own

end ProfileConnector.Bundle
