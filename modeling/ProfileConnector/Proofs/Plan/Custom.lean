import ProfileConnector.Proofs.Plan.Entity
import ProfileConnector.Proofs.Types.Bundle
import ProfileConnector.Proofs.Types.Descriptor

/-!
Entities that the catalog lacks, written from the mappings of one property. Their type comes from the
mappings of all properties of the entity, merged into one tree in which later paths displace earlier
ones; so a property keeps its leaves just if its keys are still found in the merged trees.
-/

namespace ProfileConnector

open Outcome

namespace Bundle

variable {catalog : Catalog} {schema : Schema} {rootFacet : String} {bundle : Bundle} {limits : LeafLimits}
variable {synthesis : Synthesis} {declared derived : List TypeTemplate}

def derivedFields (bundle : Bundle) : DerivedFields := bundle.derived.map fun type => (type.name, type.fields)

def entityContext (bundle : Bundle) (limits : LeafLimits) : EntityContext := ⟨bundle.typeMap, limits⟩

namespace Made

theorem derivedFields_eq (made : Made catalog schema rootFacet bundle synthesis declared derived) :
    bundle.derivedFields = synthesis.types := by
  rw [derivedFields, made.types, DerivedFields.toTypes, List.map_map]
  exact List.map_id _

end Made

/-- The type shows a derived type: it has its name and the shape of its fields. -/
def Stands (bundle : Bundle) (info : TypeInfo) : Prop :=
  ∃ type ∈ bundle.derived, info.name = type.name ∧
    Shapes bundle.catalog bundle.aliases type.declarations info

theorem Made.stands (made : Made catalog schema rootFacet bundle synthesis declared derived) {name : String}
    (member : name ∈ KeyedList.keys bundle.derivedFields) :
    ∃ info, KeyedList.get? name bundle.typeMap = some info ∧ info.name = name ∧ bundle.Stands info := by
  obtain ⟨⟨_, _⟩, listed, rfl⟩ := List.mem_map.mp member
  obtain ⟨type, inside, same⟩ := List.mem_map.mp listed
  cases same
  obtain ⟨template, _, named, found, shapes⟩ := made.get?_derived inside
  exact ⟨template.toInfo, found, named, type, inside, named, made.source ▸ shapes⟩

theorem Made.property?_stands (made : Made catalog schema rootFacet bundle synthesis declared derived)
    {info : TypeInfo} (stands : bundle.Stands info) (key : String) :
    ((info.property? key).isSome ↔ (bundle.derivedFields.field? info.name key).isSome) ∧
    ∀ property, info.property? key = some property → ∃ field, bundle.derivedFields.field? info.name key = some field ∧
      Descriptor.resolve catalog bundle.aliases field.declaredType = .ok property.descriptor := by
  obtain ⟨type, inside, named, shapes⟩ := stands
  have sound : DerivedFields.Sound bundle.derivedFields :=
    made.derivedFields_eq ▸ Catalog.sound_synthesis made.synthesized
  have fields : bundle.derivedFields.fieldsOf info.name = type.fields := by
    have listed : type ∈ bundle.derivedFields.toTypes := by
      rw [made.derivedFields_eq, ← made.types]
      exact inside
    rw [named, sound.fieldsOf_of_mem listed]
  have names : key ∈ KeyedList.keys info.properties ↔ ∃ field ∈ type.fields, field.name = key := by
    rw [shapes.names]
    simp [DerivedType.declarations]
  constructor
  · rw [TypeInfo.property?, KeyedList.isSome_get?, names, DerivedFields.field?, fields, List.find?_isSome]
    simp
  · intro property owned
    obtain ⟨field, listed, rfl⟩ := names.mp (KeyedList.mem_keys_of_get? owned)
    obtain ⟨shown, found, shows⟩ := shapes.shown ⟨field.name, field.declaredType, true⟩
      (List.mem_map.mpr ⟨field, listed, rfl⟩)
    cases owned.symm.trans found
    exact ⟨field, sound.field?_of_mem (fields ▸ listed), made.source ▸ shows.descriptor⟩

theorem Made.nested_stands (made : Made catalog schema rootFacet bundle synthesis declared derived)
    (limits : LeafLimits) {info : TypeInfo} (stands : bundle.Stands info) {key : String} {property : PropertyInfo}
    (owned : info.property? key = some property) :
    property.descriptor.isCollection = false ∧ ∀ next, (bundle.entityContext limits).nestedInfo? property = some next →
      bundle.Stands next ∧ bundle.derivedFields.nested? info.name key = some next.name := by
  have sound : DerivedFields.Sound bundle.derivedFields :=
    made.derivedFields_eq ▸ Catalog.sound_synthesis made.synthesized
  obtain ⟨field, found, resolved⟩ := (made.property?_stands stands key).2 property owned
  cases target : field.target with
  | text =>
    rw [show field.declaredType = "Edm.String" by simp [DerivedField.declaredType, target]] at resolved
    obtain ⟨single, plain⟩ := Descriptor.resolve_text resolved
    refine ⟨single, fun next nested => ?_⟩
    simp [EntityContext.nestedInfo?, plain] at nested
  | nested type =>
    have below : bundle.derivedFields.nested? info.name key = some type := by
      simp [DerivedFields.nested?, found, DerivedField.nestedType?, target]
    obtain ⟨present, filled⟩ := sound.nested info.name key type below
    rw [show field.declaredType = DeclaredType.catalogQualifier ++ "." ++ type by
      simp [DerivedField.declaredType, target]] at resolved
    obtain ⟨single, named⟩ := Descriptor.resolve_qualified filled resolved
    refine ⟨single, fun next nested => ?_⟩
    simp only [EntityContext.nestedInfo?] at nested
    split at nested
    · rename_i composite
      obtain ⟨other, known, rfl, shows⟩ := made.stands present
      rw [named composite] at nested
      cases nested.symm.trans known
      exact ⟨shows, below⟩
    · cases nested

theorem Made.stands_of_renders (made : Made catalog schema rootFacet bundle synthesis declared derived)
    {info last : TypeInfo} {tree node : PathTree.Branches} (stands : bundle.Stands info)
    (renders : (bundle.entityContext limits).Renders info tree last node) : bundle.Stands last := by
  induction renders with
  | here => exact stands
  | under member owned nested _ ih => exact ih ((made.nested_stands limits stands owned).2 _ nested).1

/-- Where the leaves of a tree survive in another one, each of its nodes has a counterpart there. -/
theorem Made.descends_of_renders (made : Made catalog schema rootFacet bundle synthesis declared derived)
    {info last : TypeInfo} {tree node : PathTree.Branches} (stands : bundle.Stands info)
    (renders : (bundle.entityContext limits).Renders info tree last node) {path : List String}
    {others : PathTree.Branches} (tidy : PathTree.Tidy path tree) (tidy' : PathTree.Tidy path others)
    (survives : PathTree.Survives tree others) :
    ∃ other, bundle.derivedFields.Descends info.name others last.name other ∧
      ∀ key, key ∈ KeyedList.keys node → key ∈ KeyedList.keys other := by
  induction renders generalizing path others with
  | here => exact ⟨others, .here, fun key member => survives.mem_keys tidy tidy' member⟩
  | under member owned nested _ ih =>
    obtain ⟨shows, below⟩ := (made.nested_stands limits stands owned).2 _ nested
    obtain ⟨children', listed, inside⟩ := survives.child tidy tidy' member
    obtain ⟨other, descends, keys⟩ := ih shows (tidy.child member) (tidy'.child listed) inside
    exact ⟨other, .under listed below descends, keys⟩

/--
The tree of a property whose entity the catalog lacks, in every bundle, for every way of reading
leaves. It fits the type of its entity just if each of its keys is also a key of a merged node that
belongs to the same type, and just if the record made of it has a value for each of its leaves. It fits
if all its leaves survive in the tree that is merged from all mappings of the entity.
-/
theorem customEntity_fits_iff (built : build catalog schema rootFacet = .ok bundle) {property : Property}
    (listed : property ∈ schema.properties) {mapping : EntityMapping} (mapped : property.entity = some mapping)
    (plain : property.type.isPrincipal = false) (absent : catalog.find? mapping.entity = none)
    (limits : LeafLimits) :
    ∃ info trees, bundle.infoFor? mapping.entity = some info ∧ catalog.contributions schema = .ok trees ∧
      let context := bundle.entityContext limits
      let tree := PathTree.build mapping.fields
      (context.Fits info tree ↔ ∀ last node, context.Renders info tree last node → ∀ key, key ∈ KeyedList.keys node →
        ∃ merged, Catalog.Belongs trees bundle.derivedFields last.name merged ∧ key ∈ KeyedList.keys merged) ∧
      (context.Fits info tree ↔ ∀ (reader : LeafReader) next,
        (context.object (some info) reader next tree).values =
          (PathTree.leavesOf tree).map (reader.single limits)) ∧
      (∀ fields, (mapping.entity, fields) ∈ schema.entityFields →
        PathTree.Survives tree (PathTree.build fields) → context.Fits info tree) := by
  obtain ⟨synthesis, declared, derived, made⟩ := build_ok built
  obtain ⟨trees, merged, _⟩ := Catalog.synthesis_ok made.synthesized
  obtain ⟨fields, grouped⟩ := Schema.exists_entityFields listed mapped plain
  have present : mapping.entity ∈ KeyedList.keys bundle.derivedFields :=
    made.derivedFields_eq ▸ Catalog.mem_keys_of_contribution merged made.synthesized
      (Catalog.mem_contributions merged absent grouped)
  obtain ⟨info, found, named, stands⟩ := made.stands present
  have tidy := PathTree.tidy_build mapping.fields
  -- The properties of a type on the way are the keys of the merged nodes that belong to it.
  have exact : (bundle.entityContext limits).Fits info (PathTree.build mapping.fields) ↔ ∀ last node,
      (bundle.entityContext limits).Renders info (PathTree.build mapping.fields) last node →
      ∀ key, key ∈ KeyedList.keys node → ∃ merged, Catalog.Belongs trees bundle.derivedFields last.name merged ∧
        key ∈ KeyedList.keys merged := by
    refine forall_congr' fun last => forall_congr' fun node => forall_congr' fun renders => ?_
    refine forall_congr' fun key => imp_congr_right fun _ => ?_
    rw [(made.property?_stands (made.stands_of_renders stands renders) key).1, made.derivedFields_eq,
      Catalog.isSome_field?_iff merged made.synthesized]
  have single : (bundle.entityContext limits).Single info (PathTree.build mapping.fields) :=
    fun last node renders key property owned =>
      (made.nested_stands limits (made.stands_of_renders stands renders) owned).1
  refine ⟨info, trees, by rw [infoFor?, found], merged, exact, ?_, fun others grouped survives => ?_⟩
  · rw [← EntityContext.kept_eq_iff tidy]
    constructor
    · intro kept reader next
      rw [EntityContext.values_object reader single, kept]
      rfl
    · intro all
      have values := (EntityContext.values_object .fromRow single 0).symm.trans (all .fromRow 0)
      refine (EntityContext.kept_sublist _ _ _).eq_of_length ?_
      simpa using congrArg List.length values
  · rw [exact]
    intro last node renders key member
    obtain ⟨other, descends, keys⟩ := made.descends_of_renders stands renders tidy (PathTree.tidy_build others) survives
    exact ⟨other, ⟨mapping.entity, _, Catalog.mem_contributions merged absent grouped, named ▸ descends⟩, keys key member⟩

def gadgetCatalog : Catalog where
  types := [⟨"facet", [⟨"p", "Edm.String", true⟩], none⟩]
  names_distinct := by decide

def firstFields : List FieldMapping := [⟨"x.y", { headers := ["Y"] }⟩]

def secondFields : List FieldMapping := [⟨"x", { headers := ["X"] }⟩, ⟨"x.z", { headers := ["Z"] }⟩]

def gadgetSchema : Schema where
  contentCategory := some "people"
  properties := [
    { name := "first", type := .string, entity := some ⟨"gadget", firstFields⟩ },
    { name := "second", type := .string, entity := some ⟨"gadget", secondFields⟩ }]

theorem customEntity_fits_second : ∃ bundle info, build gadgetCatalog gadgetSchema "facet" = .ok bundle ∧
    gadgetSchema.properties[1] ∈ gadgetSchema.properties ∧
    gadgetSchema.properties[1].entity = some ⟨"gadget", secondFields⟩ ∧
    gadgetSchema.properties[1].type.isPrincipal = false ∧ gadgetCatalog.find? "gadget" = none ∧
    bundle.infoFor? "gadget" = some info ∧ (bundle.entityContext {}).Fits info (PathTree.build secondFields) ∧
    ∀ (reader : LeafReader) next,
      ((bundle.entityContext {}).object (some info) reader next (PathTree.build secondFields)).values =
        [reader.single {} ⟨"x.z", { headers := ["Z"] }⟩] := by
  have view : (build gadgetCatalog gadgetSchema "facet").map (·.closure) = .ok ["facet"] := by decide +kernel
  obtain ⟨bundle, built, _⟩ := map_eq_ok.mp view
  have listed : gadgetSchema.properties[1] ∈ gadgetSchema.properties := List.getElem_mem _
  have absent : gadgetCatalog.find? "gadget" = none := by decide +kernel
  obtain ⟨info, _, found, _, _, reads, keeps⟩ := customEntity_fits_iff built listed rfl rfl absent {}
  have grouped : ("gadget", firstFields ++ secondFields) ∈ gadgetSchema.entityFields := by decide +kernel
  have same : PathTree.leavesOf (PathTree.build secondFields) =
      PathTree.leavesOf (PathTree.build (firstFields ++ secondFields)) := by decide +kernel
  have fits := keeps _ grouped fun mapping member => ⟨mapping, same ▸ member, rfl⟩
  have leaf : PathTree.leavesOf (PathTree.build secondFields) = [⟨"x.z", { headers := ["Z"] }⟩] := by decide +kernel
  refine ⟨bundle, info, built, listed, rfl, rfl, absent, found, fits, fun reader next => ?_⟩
  exact (reads.mp fits reader next).trans (by rw [leaf]; rfl)

/-- The first property loses its only leaf. -/
theorem customEntity_drops_first : ∃ bundle info, build gadgetCatalog gadgetSchema "facet" = .ok bundle ∧
    gadgetCatalog.find? "gadget" = none ∧ bundle.infoFor? "gadget" = some info ∧
    ¬ (bundle.entityContext {}).Fits info (PathTree.build firstFields) ∧
    PathTree.leavesOf (PathTree.build firstFields) = [⟨"x.y", { headers := ["Y"] }⟩] ∧
    ((bundle.entityContext {}).object (some info) .fromRow 0 (PathTree.build firstFields)).values = [] := by
  have view : (build gadgetCatalog gadgetSchema "facet").map (fun bundle =>
      (bundle.infoFor? "gadget").map fun info =>
        ((bundle.entityContext {}).kept info (PathTree.build firstFields),
          ((bundle.entityContext {}).object (some info) .fromRow 0 (PathTree.build firstFields)).values.length)) =
      .ok (some ([], 0)) := by decide +kernel
  obtain ⟨bundle, built, shown⟩ := map_eq_ok.mp view
  obtain ⟨info, found, parts⟩ := Option.map_eq_some_iff.mp shown
  simp only [Prod.mk.injEq] at parts
  have leaf : PathTree.leavesOf (PathTree.build firstFields) = [⟨"x.y", { headers := ["Y"] }⟩] := by decide +kernel
  refine ⟨bundle, info, built, by decide +kernel, found, fun fits => ?_, leaf, List.eq_nil_of_length_eq_zero parts.2⟩
  have all := (EntityContext.kept_eq_iff (PathTree.tidy_build firstFields)).mpr fits
  rw [leaf, parts.1] at all
  cases all

end Bundle

end ProfileConnector
