import ProfileConnector.Proofs.Types.Bundle
import ProfileConnector.Proofs.Types.Draft

/-!
Variable names that are given away twice. A draft gives a key its variable name when the key comes up,
before the subtree below it is drafted and whatever is merged later; a template gives the variable names
to the finished fields, one after the other. Both come to the same, since a draft has its fields in the
order in which it gave their names away.
-/

namespace ProfileConnector

open Outcome

/-! ## Names given in turn -/

def InTurn (fields : List DerivedField) : Prop :=
  fields.map (·.variableName) = (Identifier.freshVariables (fields.map (·.name)) []).1

theorem InTurn.concat {fields : List DerivedField} (given : InTurn fields) (key : String) (target : FieldTarget) :
    InTurn (fields ++ [⟨key, Identifier.freshVariable key (fields.map (·.variableName)), target⟩]) := by
  unfold InTurn at given ⊢
  simp only [List.map_append, List.map_cons, List.map_nil]
  rw [Identifier.freshVariables_concat, ← given]

namespace DerivedFields

variable {types : DerivedFields}

def Allocated (types : DerivedFields) : Prop := ∀ name, InTurn (types.fieldsOf name)

theorem allocated_nil : Allocated [] := fun _ => rfl

theorem Allocated.opened (allocated : Allocated types) (name : String) : Allocated (types.opened name) := by
  intro other
  rw [fieldsOf_opened]
  exact allocated other

theorem Allocated.entered (allocated : Allocated types) (name key : String) (child : PathTree) :
    Allocated (types.entered name key child) := by
  intro other
  rw [fieldsOf_entered]
  unfold withField
  split
  · exact allocated other
  · rw [fieldsOf_adding]
    split
    · exact (allocated name).concat key _
    · exact allocated other

end DerivedFields

theorem Catalog.allocated_synthesis {catalog : Catalog} {schema : Schema} {closure : List String}
    {synthesis : Synthesis} (built : catalog.synthesis schema closure = .ok synthesis) :
    synthesis.types.Allocated :=
  synthesis_induction DerivedFields.allocated_nil (fun _ name allocated => allocated.opened name)
    (fun _ name key child _ _ allocated => allocated.entered name key child) built

/-! ## Drafts of a schema -/

namespace Drafts

def extendedAll (drafts : Drafts) (trees : List (String × PathTree.Branches)) : Drafts :=
  trees.foldl (fun drafts (name, tree) => drafts.extended name tree) drafts

theorem extendedAll_ofTypes {types : DerivedFields} {trees : List (String × PathTree.Branches)}
    (tidy : ∀ name tree, (name, tree) ∈ trees → ∃ path, PathTree.Tidy path tree) (formed : types.Formed) :
    extendedAll (ofTypes types) trees = ofTypes (types.extendedAll trees) := by
  induction trees generalizing types with
  | nil => rfl
  | cons entry rest ih =>
    obtain ⟨name, tree⟩ := entry
    obtain ⟨path, own⟩ := tidy name tree List.mem_cons_self
    obtain ⟨later, first⟩ := extended_ofTypes_of_tidy formed name own
    have others : ∀ name tree, (name, tree) ∈ rest → ∃ path, PathTree.Tidy path tree :=
      fun name tree inside => tidy name tree (List.mem_cons_of_mem _ inside)
    change extendedAll (extended (ofTypes types) name tree) rest = _
    rw [first, ih others later]
    rfl

end Drafts

namespace Catalog

variable {catalog : Catalog} {schema : Schema} {closure : List String} {synthesis : Synthesis}

def placeholders (catalog : Catalog) (closure : List String) : List String :=
  closure.flatMap fun name =>
    match if catalog.isEnum name then none else catalog.find? name with
    | none => []
    | some type => type.properties.filterMap fun property => catalog.missingName? property.declaredType

/-- What is synthesized for a schema, in turn: the trees of its entities, then types without fields. -/
def requested (catalog : Catalog) (schema : Schema) (closure : List String) :
    Except CatalogFault (List (String × PathTree.Branches)) :=
  (catalog.contributions schema).map fun trees => trees ++ (catalog.placeholders closure).map fun name => (name, [])

/-- The drafts of a whole schema. -/
def drafts (catalog : Catalog) (schema : Schema) (closure : List String) : Except CatalogFault Drafts :=
  (catalog.requested schema closure).map (Drafts.extendedAll [])

theorem derivePlaceholders_eq (closure : List String) (types : DerivedFields) :
    catalog.derivePlaceholders closure types =
      types.extendedAll ((catalog.placeholders closure).map fun name => (name, [])) := by
  have opened (names : List String) (types : DerivedFields) :
      types.extendedAll (names.map fun name => (name, [])) = names.foldl DerivedFields.opened types := by
    rw [DerivedFields.extendedAll, List.foldl_map]
    rfl
  rw [opened, placeholders, derivePlaceholders]
  induction closure generalizing types with
  | nil => rfl
  | cons name rest ih =>
    rw [List.foldl_cons, ih, List.flatMap_cons, List.foldl_append]
    congr 1
    cases if catalog.isEnum name then none else catalog.find? name <;> rfl

theorem tidy_of_mem_requested {trees : List (String × PathTree.Branches)}
    (asked : catalog.requested schema closure = .ok trees) {name : String} {tree : PathTree.Branches}
    (member : (name, tree) ∈ trees) : ∃ path, PathTree.Tidy path tree := by
  obtain ⟨merged, contributed, rfl⟩ := map_eq_ok.mp asked
  rcases List.mem_append.mp member with inside | placed
  · exact tidy_of_mem_contributions contributed inside
  · obtain ⟨_, _, same⟩ := List.mem_map.mp placed
    cases same
    exact ⟨[], PathTree.tidy_nil []⟩

/-- Drafting a schema comes to the types that are synthesized for it. -/
theorem drafts_of_synthesis (built : catalog.synthesis schema closure = .ok synthesis) :
    catalog.drafts schema closure = .ok (Drafts.ofTypes synthesis.types) := by
  obtain ⟨trees, merged, result⟩ := synthesis_ok built
  have asked : catalog.requested schema closure =
      .ok (trees ++ (catalog.placeholders closure).map fun name => (name, [])) := by
    rw [requested, merged, map_ok]
  have tidy := fun name tree (member : (name, tree) ∈ _) => tidy_of_mem_requested asked member
  rw [drafts, asked, map_ok, result, derivePlaceholders_eq]
  refine congrArg Except.ok ((Drafts.extendedAll_ofTypes tidy DerivedFields.formed_nil).trans ?_)
  rw [DerivedFields.extendedAll, List.foldl_append]
  rfl

end Catalog

/-! ## Templates -/

theorem DeclaredField.named_resolveAll {catalog : Catalog} {aliases : AliasTable}
    {properties : List CatalogProperty} {used : List String} {fields : List DeclaredField}
    (resolved : resolveAll catalog aliases used properties = .ok fields) :
    fields.map (fun field => (field.name, field.variableName)) =
      (properties.map (·.name)).zip (Identifier.freshVariables (properties.map (·.name)) used).1 := by
  induction properties generalizing used fields with
  | nil =>
    cases resolved
    rfl
  | cons property rest ih =>
    obtain ⟨descriptor, _, remaining⟩ := bind_eq_ok.mp resolved
    obtain ⟨others, later, result⟩ := bind_eq_ok.mp remaining
    cases result
    rw [List.map_cons, ih later]
    rfl

theorem TypeTemplate.named_ofDerived {catalog : Catalog} {aliases : AliasTable} {type : DerivedType}
    {template : TypeTemplate} (made : ofDerived catalog aliases type = .ok template) (given : InTurn type.fields) :
    template.fields.map (fun field => (field.name, field.variableName)) =
      type.fields.map fun field => (field.name, field.variableName) := by
  obtain ⟨fields, resolved, result⟩ := bind_eq_ok.mp made
  cases result
  have names : (type.fields.map fun field => (⟨field.name, field.declaredType, true⟩ : CatalogProperty)).map (·.name) =
      type.fields.map (·.name) := by
    rw [List.map_map]
    rfl
  rw [DeclaredField.named_resolveAll resolved, names, ← given, List.zip_map']

namespace Bundle

variable {catalog : Catalog} {schema : Schema} {rootFacet : String} {bundle : Bundle}

/--
The types of a bundle are those that the drafts of its schema come to, and the template of a derived type
has its fields in order, each with the variable name that the draft gave away.
-/
theorem build_variableNames (built : build catalog schema rootFacet = .ok bundle) :
    ∃ drafts, catalog.drafts schema bundle.closure = .ok drafts ∧ bundle.derived = drafts.toTypes ∧
      ∀ type ∈ bundle.derived, (∃ template ∈ bundle.templates, template.name = type.name) ∧
        ∀ template ∈ bundle.templates, template.name = type.name →
          template.fields.map (fun field => (field.name, field.variableName)) =
            type.fields.map fun field => (field.name, field.variableName) := by
  obtain ⟨synthesis, declared, derived, made⟩ := build_ok built
  have allocated := Catalog.allocated_synthesis made.synthesized
  have sound := Catalog.sound_synthesis made.synthesized
  refine ⟨_, Catalog.drafts_of_synthesis made.synthesized, ?_, fun type listed => ⟨?_, fun template member same => ?_⟩⟩
  · rw [Drafts.toTypes_ofTypes, made.types]
  · obtain ⟨template, inside, same, _⟩ := made.get?_derived listed
    exact ⟨template, made.templates ▸ List.mem_append_right declared inside, same⟩
  · obtain ⟨own, inside, named, _⟩ := made.get?_derived listed
    have placed : own ∈ bundle.templates := made.templates ▸ List.mem_append_right declared inside
    obtain rfl : own = template := List.inj_on_of_nodup_map made.distinct placed member (named.trans same.symm)
    obtain ⟨origin, known, resolved⟩ := (mem_of_mapM made.derivations own).mp inside
    obtain ⟨bears, _⟩ := TypeTemplate.ofDerived_ok resolved (made.fields_distinct known)
    obtain rfl : origin = type :=
      List.inj_on_of_nodup_map made.derived_distinct known listed (bears.symm.trans named)
    apply TypeTemplate.named_ofDerived resolved
    rw [← sound.fieldsOf_of_mem (made.types ▸ listed)]
    exact allocated origin.name

def clashingSchema : Schema where
  properties := [
    { name := "p", type := .string
      entity := some ⟨"gadget", [⟨"a b", { headers := ["A"] }⟩, ⟨"A-B.a b", { headers := ["B"] }⟩,
        ⟨"A-B.aB", { headers := ["C"] }⟩, ⟨"aB", { headers := ["D"] }⟩]⟩ },
    { name := "q", type := .string, entity := some ⟨"gadgetA-B", [⟨"a-b", { headers := ["E"] }⟩]⟩ }]

theorem build_variableNames_clashing : ∃ bundle, build crowded clashingSchema "facet" = .ok bundle ∧
    (bundle.derived.map fun type => (type.name, type.fields.map (·.variableName))) =
      [("gadget", ["aB", "aB1", "aB2"]), ("gadgetA-B", ["aB", "aB1", "aB2"])] ∧
    ∃ drafts, crowded.drafts clashingSchema bundle.closure = .ok drafts ∧ bundle.derived = drafts.toTypes ∧
      ∀ type ∈ bundle.derived, (∃ template ∈ bundle.templates, template.name = type.name) ∧
        ∀ template ∈ bundle.templates, template.name = type.name →
          template.fields.map (fun field => (field.name, field.variableName)) =
            type.fields.map fun field => (field.name, field.variableName) := by
  have view : (build crowded clashingSchema "facet").map (fun bundle =>
      bundle.derived.map fun type => (type.name, type.fields.map (·.variableName))) =
      .ok [("gadget", ["aB", "aB1", "aB2"]), ("gadgetA-B", ["aB", "aB1", "aB2"])] := by decide +kernel
  obtain ⟨bundle, built, shown⟩ := map_eq_ok.mp view
  exact ⟨bundle, built, shown, build_variableNames built⟩

end Bundle

end ProfileConnector
