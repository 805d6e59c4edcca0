import ProfileConnector.Proofs.Types.Derived

/-!
The derived types of a whole schema. Synthesis merges a list of trees into types of given names and
then opens the types that are still missing; so the fields of a derived type are the keys of the nodes
that belong to it in one of these trees.
-/

namespace ProfileConnector

open Outcome

/-! ## The merged trees -/

namespace Schema

def grouping (groups : KeyedList String (List FieldMapping)) (property : Property) :
    KeyedList String (List FieldMapping) :=
  match property.entity with
  | none => groups
  | some mapping =>
    if property.type.isPrincipal then groups
    else
      KeyedList.put mapping.entity ((KeyedList.get? mapping.entity groups).getD [] ++ mapping.fields) groups

variable {schema : Schema} {property : Property} {mapping : EntityMapping}

theorem mem_keys_grouping_self (groups : KeyedList String (List FieldMapping))
    (mapped : property.entity = some mapping) (plain : property.type.isPrincipal = false) :
    mapping.entity ∈ KeyedList.keys (grouping groups property) := by
  simp only [grouping, mapped, plain, Bool.false_eq_true, if_false]
  exact KeyedList.mem_keys_put.mpr (Or.inl rfl)

theorem mem_keys_grouping {groups : KeyedList String (List FieldMapping)} {entity : String}
    (member : entity ∈ KeyedList.keys groups) (property : Property) :
    entity ∈ KeyedList.keys (grouping groups property) := by
  unfold grouping
  split
  · exact member
  · split
    · exact member
    · exact KeyedList.mem_keys_put.mpr (Or.inr member)

theorem exists_entityFields (listed : property ∈ schema.properties) (mapped : property.entity = some mapping)
    (plain : property.type.isPrincipal = false) : ∃ fields, (mapping.entity, fields) ∈ schema.entityFields := by
  have grouped (properties : List Property) (groups : KeyedList String (List FieldMapping))
      (known : property ∈ properties ∨ mapping.entity ∈ KeyedList.keys groups) :
      mapping.entity ∈ KeyedList.keys (properties.foldl grouping groups) := by
    induction properties generalizing groups with
    | nil => exact known.resolve_left List.not_mem_nil
    | cons first rest ih =>
      rcases known with here | before
      · rcases List.mem_cons.mp here with rfl | later
        · exact ih _ (Or.inr (mem_keys_grouping_self groups mapped plain))
        · exact ih _ (Or.inl later)
      · exact ih _ (Or.inr (mem_keys_grouping before first))
  obtain ⟨⟨_, fields⟩, member, rfl⟩ := List.mem_map.mp (grouped schema.properties [] (Or.inl listed))
  exact ⟨fields, member⟩

end Schema

namespace Catalog

def contribution? (catalog : Catalog) (tree : PathTree.Branches) (property : CatalogProperty) :
    Option (String × PathTree.Branches) :=
  if (DeclaredType.parse property.declaredType).isCollection then none
  else match catalog.missingName? property.declaredType, KeyedList.get? property.name tree with
    | some name, some (.node children) => some (name, children)
    | _, _ => none

/-- The trees that the mappings of one entity are merged as, each with the name of its type. -/
def contributionsOf (catalog : Catalog) (entity : String) (fields : List FieldMapping) :
    Except CatalogFault (List (String × PathTree.Branches)) :=
  match catalog.find? entity with
  | none => .ok [(entity, PathTree.build fields)]
  | some type => (catalog.allProperties type.name).map fun properties =>
    properties.filterMap (catalog.contribution? (PathTree.build fields))

/-- The trees that synthesis merges for a schema, in order. -/
def contributions (catalog : Catalog) (schema : Schema) : Except CatalogFault (List (String × PathTree.Branches)) :=
  (schema.entityFields.mapM fun group => catalog.contributionsOf group.1 group.2).map List.flatten

end Catalog

namespace DerivedFields

def extendedAll (types : DerivedFields) (trees : List (String × PathTree.Branches)) : DerivedFields :=
  trees.foldl (fun types (name, tree) => types.extended name tree) types

variable {types final : DerivedFields} {trees : List (String × PathTree.Branches)}

theorem extendedAll_induction {motive : DerivedFields → Prop}
    (opened : ∀ types name, motive types → motive (types.opened name))
    (entered : ∀ types name key child, key ≠ "" → Text.EndsFilled key.toList → motive types →
      motive (types.entered name key child))
    (tidy : ∀ name tree, (name, tree) ∈ trees → ∃ path, PathTree.Tidy path tree) (holds : motive types) :
    motive (types.extendedAll trees) := by
  refine List.foldlRecOn trees _ holds fun types holds entry member => ?_
  obtain ⟨path, tidy⟩ := tidy entry.1 entry.2 member
  exact visit_induction entered tidy entry.1 (opened types entry.1 holds)

theorem grows_extendedAll (tidy : ∀ name tree, (name, tree) ∈ trees → ∃ path, PathTree.Tidy path tree) :
    Grows types (types.extendedAll trees) :=
  extendedAll_induction (fun later name grown => grown.trans (grows_opened later name))
    (fun later name key child _ _ grown => grown.trans (grows_entered later name key child)) tidy
    fun _ _ _ found => found

theorem sound_extendedAll (tidy : ∀ name tree, (name, tree) ∈ trees → ∃ path, PathTree.Tidy path tree) :
    Sound (extendedAll [] trees) :=
  extendedAll_induction (fun _ name sound => sound.opened name)
    (fun _ name key child nonempty filled sound => sound.entered name key child nonempty filled) tidy sound_nil

theorem mem_keys_extendedAll (tidy : ∀ name tree, (name, tree) ∈ trees → ∃ path, PathTree.Tidy path tree)
    {name : String} {tree : PathTree.Branches} (member : (name, tree) ∈ trees) :
    name ∈ KeyedList.keys (types.extendedAll trees) := by
  induction trees generalizing types with
  | nil => cases member
  | cons entry rest ih =>
    have others : ∀ name tree, (name, tree) ∈ rest → ∃ path, PathTree.Tidy path tree :=
      fun name tree inside => tidy name tree (List.mem_cons_of_mem entry inside)
    rcases List.mem_cons.mp member with rfl | later
    · obtain ⟨path, own⟩ := tidy name tree List.mem_cons_self
      change name ∈ KeyedList.keys ((types.extended name tree).extendedAll rest)
      refine extendedAll_induction (motive := fun later => name ∈ KeyedList.keys later)
        (fun _ _ present => mem_keys_opened.mpr (Or.inr present))
        (fun _ other key child _ _ present => mem_keys_entered present other key child) others ?_
      exact mem_keys_extended own types name
    · exact ih others later

theorem isSome_field?_of_merged (tidy : ∀ name tree, (name, tree) ∈ trees → ∃ path, PathTree.Tidy path tree)
    (grown : Grows (types.extendedAll trees) final) {origin name key : String} {tree node : PathTree.Branches}
    (member : (origin, tree) ∈ trees) (descends : Descends final origin tree name node)
    (listed : key ∈ KeyedList.keys node) : (final.field? name key).isSome := by
  induction trees generalizing types with
  | nil => cases member
  | cons entry rest ih =>
    have others : ∀ name tree, (name, tree) ∈ rest → ∃ path, PathTree.Tidy path tree :=
      fun name tree inside => tidy name tree (List.mem_cons_of_mem entry inside)
    rcases List.mem_cons.mp member with rfl | later
    · obtain ⟨path, own⟩ := tidy origin tree List.mem_cons_self
      exact isSome_field?_of_descends own ((grows_extendedAll others).trans grown) descends listed
    · exact ih others grown later

theorem extendedAll_within {known : String → String → Prop}
    (tidy : ∀ name tree, (name, tree) ∈ trees → ∃ path, PathTree.Tidy path tree)
    (grown : Grows (types.extendedAll trees) final)
    (old : ∀ name key, (types.field? name key).isSome → known name key)
    (merged : ∀ origin tree, (origin, tree) ∈ trees → ∀ name node, Descends final origin tree name node →
      ∀ key, key ∈ KeyedList.keys node → known name key) :
    ∀ name key, ((types.extendedAll trees).field? name key).isSome → known name key := by
  induction trees generalizing types with
  | nil => exact old
  | cons entry rest ih =>
    obtain ⟨origin, tree⟩ := entry
    have others : ∀ name tree, (name, tree) ∈ rest → ∃ path, PathTree.Tidy path tree :=
      fun name tree inside => tidy name tree (List.mem_cons_of_mem _ inside)
    obtain ⟨path, own⟩ := tidy origin tree List.mem_cons_self
    have extended : ∀ name key, ((types.extended origin tree).field? name key).isSome → known name key :=
      visit_within own ((grows_extendedAll others).trans grown)
        (fun name key present => old name key (by rwa [field?_opened] at present))
        (merged origin tree List.mem_cons_self)
    exact ih others grown extended fun origin tree inside => merged origin tree (List.mem_cons_of_mem _ inside)

end DerivedFields

namespace Catalog

variable {catalog : Catalog} {schema : Schema} {closure : List String} {synthesis : Synthesis}

theorem deriveMissing_eq (tree : PathTree.Branches) (types : DerivedFields) (property : CatalogProperty) :
    catalog.deriveMissing tree types property = types.extendedAll (catalog.contribution? tree property).toList := by
  unfold deriveMissing contribution?
  split
  · rfl
  · split <;> simp_all [DerivedFields.extendedAll]

theorem deriveEntity_eq (types : DerivedFields) (entity : String) (fields : List FieldMapping) :
    catalog.deriveEntity types entity fields = (catalog.contributionsOf entity fields).map types.extendedAll := by
  unfold deriveEntity contributionsOf
  cases catalog.find? entity with
  | none => rfl
  | some type =>
    have merged (properties : List CatalogProperty) (types : DerivedFields) :
        properties.foldl (catalog.deriveMissing (PathTree.build fields)) types =
          types.extendedAll (properties.filterMap (catalog.contribution? (PathTree.build fields))) := by
      induction properties generalizing types with
      | nil => rfl
      | cons property rest ih =>
        rw [List.foldl_cons, ih, deriveMissing_eq, List.filterMap_cons]
        cases catalog.contribution? (PathTree.build fields) property <;> rfl
    cases found : catalog.allProperties type.name with
    | error fault => simp [found, Except.map]
    | ok properties => simp [found, merged]

theorem deriveEntities_eq (types : DerivedFields) (groups : List (String × List FieldMapping)) :
    catalog.deriveEntities types groups =
      (groups.mapM fun group => catalog.contributionsOf group.1 group.2).map
        fun trees : List (List (String × PathTree.Branches)) => types.extendedAll trees.flatten := by
  induction groups generalizing types with
  | nil => rfl
  | cons group rest ih =>
    obtain ⟨entity, fields⟩ := group
    rw [deriveEntities, deriveEntity_eq, List.mapM_cons]
    cases catalog.contributionsOf entity fields with
    | error fault => simp [Except.map]
    | ok trees =>
      simp only [map_ok, ok_bind, ih]
      cases rest.mapM fun group => catalog.contributionsOf group.1 group.2 with
      | error fault => simp [Except.map]
      | ok others => simp [DerivedFields.extendedAll]

theorem synthesis_ok (built : catalog.synthesis schema closure = .ok synthesis) :
    ∃ trees, catalog.contributions schema = .ok trees ∧
      synthesis.types = catalog.derivePlaceholders closure (DerivedFields.extendedAll [] trees) := by
  obtain ⟨types, merged, result⟩ := bind_eq_ok.mp built
  cases result
  rw [deriveEntities_eq, map_eq_ok] at merged
  obtain ⟨trees, each, rfl⟩ := merged
  exact ⟨trees.flatten, by rw [contributions, each, map_ok], rfl⟩

theorem tidy_of_mem_contributions {trees : List (String × PathTree.Branches)}
    (merged : catalog.contributions schema = .ok trees) {name : String} {tree : PathTree.Branches}
    (member : (name, tree) ∈ trees) : ∃ path, PathTree.Tidy path tree := by
  obtain ⟨groups, each, rfl⟩ := map_eq_ok.mp merged
  obtain ⟨group, listed, inside⟩ := List.mem_flatten.mp member
  obtain ⟨⟨entity, fields⟩, _, own⟩ := (mem_of_mapM each group).mp listed
  simp only [contributionsOf] at own
  split at own
  · cases own
    cases List.mem_singleton.mp inside
    exact ⟨[], PathTree.tidy_build fields⟩
  · obtain ⟨properties, _, rfl⟩ := map_eq_ok.mp own
    obtain ⟨property, _, found⟩ := List.mem_filterMap.mp inside
    unfold contribution? at found
    split at found
    · cases found
    · split at found
      · rename_i children _ present
        cases found
        exact ⟨_, (PathTree.tidy_build fields).child (KeyedList.mem_of_get? present)⟩
      · cases found

theorem derivePlaceholders_induction {motive : DerivedFields → Prop}
    (opened : ∀ types name, motive types → motive (types.opened name)) (closure : List String)
    {types : DerivedFields} (holds : motive types) : motive (catalog.derivePlaceholders closure types) := by
  unfold derivePlaceholders
  refine List.foldlRecOn closure _ holds fun types holds name _ => ?_
  split
  · exact holds
  · exact List.foldlRecOn _ _ holds fun types holds name _ => opened types name holds

theorem mem_keys_foldl_opened {names : List String} {types : DerivedFields} {name : String} :
    name ∈ KeyedList.keys (names.foldl DerivedFields.opened types) ↔ name ∈ names ∨ name ∈ KeyedList.keys types := by
  induction names generalizing types with
  | nil => simp
  | cons first rest ih =>
    rw [List.foldl_cons, ih, DerivedFields.mem_keys_opened, List.mem_cons]
    tauto

theorem mem_keys_derivePlaceholders {closure : List String} {name target : String} {type : CatalogType}
    {property : CatalogProperty} (member : name ∈ closure) (composite : catalog.isEnum name = false)
    (found : catalog.find? name = some type) (own : property ∈ type.properties)
    (missing : catalog.missingName? property.declaredType = some target) (types : DerivedFields) :
    target ∈ KeyedList.keys (catalog.derivePlaceholders closure types) := by
  obtain ⟨before, after, rfl⟩ := List.append_of_mem member
  rw [derivePlaceholders, List.foldl_append, List.foldl_cons]
  refine derivePlaceholders_induction (motive := fun later => target ∈ KeyedList.keys later)
    (fun _ _ present => DerivedFields.mem_keys_opened.mpr (Or.inr present)) after ?_
  simp only [composite, Bool.false_eq_true, if_false, found]
  exact mem_keys_foldl_opened.mpr (Or.inl (List.mem_filterMap.mpr ⟨property, own, missing⟩))

theorem mem_keys_of_missingName? {name target : String} {type : CatalogType} {property : CatalogProperty}
    (built : catalog.synthesis schema closure = .ok synthesis) (member : name ∈ closure)
    (composite : catalog.isEnum name = false) (found : catalog.find? name = some type)
    (own : property ∈ type.properties) (missing : catalog.missingName? property.declaredType = some target) :
    target ∈ KeyedList.keys synthesis.types := by
  obtain ⟨trees, _, result⟩ := synthesis_ok built
  rw [result]
  exact mem_keys_derivePlaceholders member composite found own missing _

theorem synthesis_isOk (mapped : ∀ group ∈ schema.entityFields, ∀ type, catalog.find? group.1 = some type →
    catalog.find? type.name = some type) (closure : List String) :
    ∃ synthesis, catalog.synthesis schema closure = .ok synthesis := by
  have each : ∀ group ∈ schema.entityFields, ∃ trees, catalog.contributionsOf group.1 group.2 = .ok trees := by
    intro group member
    simp only [contributionsOf]
    cases found : catalog.find? group.1 with
    | none => exact ⟨_, rfl⟩
    | some type => simp [allProperties, get, mapped group member type found]
  obtain ⟨trees, done⟩ := mapM_isOk.mpr each
  exact ⟨_, by rw [synthesis, deriveEntities_eq, done]; rfl⟩

theorem mem_contributions {trees : List (String × PathTree.Branches)}
    (merged : catalog.contributions schema = .ok trees) {entity : String} {fields : List FieldMapping}
    (absent : catalog.find? entity = none) (grouped : (entity, fields) ∈ schema.entityFields) :
    (entity, PathTree.build fields) ∈ trees := by
  obtain ⟨groups, each, rfl⟩ := map_eq_ok.mp merged
  obtain ⟨group, listed, own⟩ := mapM_total each grouped
  simp only [contributionsOf, absent, Except.ok.injEq] at own
  exact List.mem_flatten.mpr ⟨group, listed, own ▸ List.mem_singleton_self _⟩

theorem synthesis_induction {motive : DerivedFields → Prop} (empty : motive [])
    (opened : ∀ types name, motive types → motive (types.opened name))
    (entered : ∀ types name key child, key ≠ "" → Text.EndsFilled key.toList → motive types →
      motive (types.entered name key child))
    (built : catalog.synthesis schema closure = .ok synthesis) : motive synthesis.types := by
  obtain ⟨trees, merged, result⟩ := synthesis_ok built
  rw [result]
  refine derivePlaceholders_induction opened closure ?_
  exact DerivedFields.extendedAll_induction opened entered
    (fun name tree member => tidy_of_mem_contributions merged member) empty

/-! ## The result -/

theorem sound_synthesis (built : catalog.synthesis schema closure = .ok synthesis) :
    DerivedFields.Sound synthesis.types :=
  synthesis_induction DerivedFields.sound_nil (fun _ name sound => sound.opened name)
    (fun _ name key child nonempty filled sound => sound.entered name key child nonempty filled) built

theorem mem_keys_of_contribution {trees : List (String × PathTree.Branches)}
    (merged : catalog.contributions schema = .ok trees)
    (built : catalog.synthesis schema closure = .ok synthesis) {name : String} {tree : PathTree.Branches}
    (member : (name, tree) ∈ trees) : name ∈ KeyedList.keys synthesis.types := by
  obtain ⟨trees', merged', result⟩ := synthesis_ok built
  cases merged.symm.trans merged'
  rw [result]
  refine derivePlaceholders_induction (motive := fun later => name ∈ KeyedList.keys later)
    (fun _ _ present => DerivedFields.mem_keys_opened.mpr (Or.inr present)) closure ?_
  exact DerivedFields.mem_keys_extendedAll (fun name tree member => tidy_of_mem_contributions merged member) member

/-- The node belongs to the type in one of the merged trees. -/
def Belongs (trees : List (String × PathTree.Branches)) (types : DerivedFields) (name : String)
    (node : PathTree.Branches) : Prop :=
  ∃ origin tree, (origin, tree) ∈ trees ∧ DerivedFields.Descends types origin tree name node

theorem field?_derivePlaceholders (closure : List String) (types : DerivedFields) (name key : String) :
    (catalog.derivePlaceholders closure types).field? name key = types.field? name key :=
  derivePlaceholders_induction (motive := fun later => later.field? name key = types.field? name key)
    (fun later other same => (DerivedFields.field?_opened later other name key).trans same) closure rfl

theorem isSome_field?_iff {trees : List (String × PathTree.Branches)}
    (merged : catalog.contributions schema = .ok trees)
    (built : catalog.synthesis schema closure = .ok synthesis) (name key : String) :
    (synthesis.types.field? name key).isSome ↔
      ∃ node, Belongs trees synthesis.types name node ∧ key ∈ KeyedList.keys node := by
  obtain ⟨trees', merged', result⟩ := synthesis_ok built
  cases merged.symm.trans merged'
  have tidy : ∀ name tree, (name, tree) ∈ trees → ∃ path, PathTree.Tidy path tree :=
    fun name tree member => tidy_of_mem_contributions merged member
  -- Placeholders have no fields, so all fields come from the contributions.
  have same (name key : String) :
      synthesis.types.field? name key = (DerivedFields.extendedAll [] trees).field? name key := by
    rw [result, field?_derivePlaceholders]
  have grown : DerivedFields.Grows (DerivedFields.extendedAll [] trees) synthesis.types :=
    fun name key field found => (same name key).trans found
  have within : ∀ name key, ((DerivedFields.extendedAll [] trees).field? name key).isSome →
      ∃ node, Belongs trees synthesis.types name node ∧ key ∈ KeyedList.keys node := by
    refine DerivedFields.extendedAll_within tidy grown ?_ ?_
    · intro name key present
      simp [DerivedFields.field?, DerivedFields.fieldsOf, KeyedList.get?] at present
    · intro origin tree member name node descends key listed
      exact ⟨node, ⟨origin, tree, member, descends⟩, listed⟩
  constructor
  · rw [same]
    exact within name key
  · rintro ⟨node, ⟨origin, tree, member, descends⟩, listed⟩
    exact DerivedFields.isSome_field?_of_merged tidy grown member descends listed

end Catalog

end ProfileConnector
