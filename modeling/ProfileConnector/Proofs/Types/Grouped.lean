import ProfileConnector.Proofs.PathTree.Collision
import ProfileConnector.Proofs.Types.Draft
import ProfileConnector.Proofs.Types.Requests

/-!
Mappings that are grouped, and mappings that are merged property by property. The synthesis of a schema
builds one tree from all mappings of an entity, in which later paths displace earlier ones, and merges
it into nothing; merging the own tree of each property in turn keeps what came first. Both make the
same types just if the one tree asks for every field first as the own trees do.
-/

namespace ProfileConnector

open Outcome

/-! ## The mappings of an entity -/

def Property.mappingsTo? (property : Property) (entity : String) : Option (List FieldMapping) :=
  match property.entity with
  | none => none
  | some mapping => if property.type.isPrincipal || mapping.entity != entity then none else some mapping.fields

namespace Schema

def mappingsOf (schema : Schema) (entity : String) : List (List FieldMapping) :=
  schema.properties.filterMap (·.mappingsTo? entity)

variable {schema : Schema} {entity : String}

theorem get?_grouping (groups : KeyedList String (List FieldMapping)) (property : Property) :
    KeyedList.get? entity (grouping groups property) =
      match property.mappingsTo? entity with
      | none => KeyedList.get? entity groups
      | some fields => some ((KeyedList.get? entity groups).getD [] ++ fields) := by
  unfold grouping Property.mappingsTo?
  cases property.entity with
  | none => rfl
  | some mapping =>
    cases principal : property.type.isPrincipal with
    | true => simp
    | false =>
      by_cases same : mapping.entity = entity
      · simp [same, KeyedList.get?_put]
      · simp [same, KeyedList.get?_put]

theorem get?_entityFields (mapped : schema.mappingsOf entity ≠ []) :
    KeyedList.get? entity schema.entityFields = some (schema.mappingsOf entity).flatten := by
  have grouped (properties : List Property) (groups : KeyedList String (List FieldMapping)) :
      KeyedList.get? entity (properties.foldl grouping groups) =
        if properties.filterMap (·.mappingsTo? entity) = [] then KeyedList.get? entity groups
        else some ((KeyedList.get? entity groups).getD [] ++
          (properties.filterMap (·.mappingsTo? entity)).flatten) := by
    induction properties generalizing groups with
    | nil => rfl
    | cons property rest ih =>
      rw [List.foldl_cons, ih, get?_grouping, List.filterMap_cons]
      cases property.mappingsTo? entity with
      | none => rfl
      | some fields => by_cases last : rest.filterMap (·.mappingsTo? entity) = [] <;> simp [last]
  exact (grouped schema.properties []).trans (if_neg mapped)

theorem nodup_entityFields (schema : Schema) : (KeyedList.keys schema.entityFields).Nodup := by
  refine List.foldlRecOn (motive := fun groups => (KeyedList.keys groups).Nodup) schema.properties grouping
    List.nodup_nil fun groups distinct property _ => ?_
  unfold grouping
  split
  · exact distinct
  · split
    · exact distinct
    · exact KeyedList.nodup_keys_put _ _ distinct

end Schema

/-! ## Visits of paths -/

namespace Visit

/-- What following the segments of a path from a type on visits. -/
def ofPath (name : String) : List String → List Visit
  | [] => []
  | [key] => [.leaf name key]
  | key :: next :: rest =>
    let nested := name ++ Identifier.memberName key
    [.subtree name key, .type nested] ++ ofPath nested (next :: rest)

theorem ofBranches_eq_flatMap (name : String) (branches : PathTree.Branches) :
    ofBranches name branches = branches.flatMap fun (key, child) => ofBranch name key child := by
  induction branches with
  | nil => rw [ofBranches, List.flatMap_nil]
  | cons entry rest ih => rw [ofBranches, ih, List.flatMap_cons]

theorem mem_ofBranches {path : List String} {branches : PathTree.Branches} (tidy : PathTree.Tidy path branches)
    {name : String} {visit : Visit} : visit ∈ ofBranches name branches ↔
      ∃ mapping ∈ PathTree.leavesOf branches, ∃ rest,
        PathTree.segments mapping.path = path ++ rest ∧ visit ∈ ofPath name rest := by
  induction tidy generalizing name with
  | @intro path branches distinct placed inhabited below ih =>
    have tidy : PathTree.Tidy path branches := .intro distinct placed inhabited below
    rw [ofBranches_eq_flatMap]
    constructor
    · intro member
      obtain ⟨⟨key, child⟩, listed, visited⟩ := List.mem_flatMap.mp member
      cases child with
      | leaf mapping =>
        have leaf : mapping ∈ PathTree.leavesOf branches :=
          PathTree.mem_leavesOf.mpr ⟨key, .leaf mapping, listed, by simp [PathTree.leaves]⟩
        refine ⟨mapping, leaf, [key], placed key mapping listed, ?_⟩
        simpa [ofBranch, ofPath] using visited
      | node children =>
        simp only [ofBranch] at visited
        rcases List.mem_append.mp visited with here | deeper
        · obtain ⟨mapping, inside⟩ := tidy.exists_leaf_below listed
          obtain ⟨leaf, next, rest, whole⟩ := tidy.segments_below listed inside
          exact ⟨mapping, leaf, key :: next :: rest, whole, List.mem_append_left _ here⟩
        · obtain ⟨mapping, inside, rest, whole, visited⟩ := (ih key children listed).mp deeper
          obtain ⟨leaf, next, others, same⟩ := tidy.segments_below listed inside
          obtain rfl : rest = next :: others := by simpa [whole] using same
          exact ⟨mapping, leaf, _, same, List.mem_append_right _ visited⟩
    · rintro ⟨mapping, leaf, rest, whole, visited⟩
      obtain ⟨key, child, listed, within⟩ := PathTree.mem_leavesOf.mp leaf
      refine List.mem_flatMap.mpr ⟨(key, child), listed, ?_⟩
      cases child with
      | leaf own =>
        obtain rfl : mapping = own := by simpa [PathTree.leaves] using within
        obtain rfl : rest = [key] := by simpa [placed key mapping listed] using whole.symm
        simpa [ofBranch, ofPath] using visited
      | node children =>
        rw [PathTree.leaves] at within
        obtain ⟨_, next, others, long⟩ := tidy.segments_below listed within
        obtain rfl : rest = key :: next :: others := by simpa [long] using whole.symm
        simp only [ofPath, ofBranch] at visited ⊢
        refine List.mem_append.mpr ((List.mem_append.mp visited).imp_right fun further => ?_)
        exact (ih key children listed).mpr ⟨mapping, within, next :: others, by simpa using whole, further⟩

end Visit

/-! ## Types that agree -/

def FieldTarget.declared (target : FieldTarget) : String := (⟨"", "", target⟩ : DerivedField).declaredType

theorem FieldTarget.declared_injective : Function.Injective FieldTarget.declared := by
  intro first second same
  cases first with
  | text =>
    cases second with
    | text => rfl
    | nested type => exact absurd same.symm (DerivedField.declaredType_ne_text rfl)
  | nested type =>
    cases second with
    | text => exact absurd same (DerivedField.declaredType_ne_text rfl)
    | nested other => simpa [declared, DerivedField.declaredType] using same

namespace DerivedFields

variable {types other : DerivedFields} {trees : List (String × PathTree.Branches)} {name key : String}

theorem target?_eq_none (absent : name ∉ KeyedList.keys types) (key : String) : types.target? name key = none := by
  simp [target?, field?, fieldsOf, KeyedList.get?_eq_none absent]

theorem Sound.mem_signature_declared (sound : Sound types) {type : DerivedType} (listed : type ∈ types.toTypes)
    {target : FieldTarget} : (key, target.declared) ∈ type.signature ↔ types.target? type.name key = some target := by
  rw [sound.mem_signature listed, target?, Option.map_eq_some_iff]
  refine exists_congr fun field => and_congr_right fun _ => ?_
  exact FieldTarget.declared_injective.eq_iff (a := field.target)

theorem Sound.signature_perm_iff (sound : Sound types) (sound' : Sound other) {type type' : DerivedType}
    (listed : type ∈ types.toTypes) (listed' : type' ∈ other.toTypes) (named : type'.name = type.name) :
    type.signature.Perm type'.signature ↔ ∀ key, types.target? type.name key = other.target? type.name key := by
  rw [List.perm_ext_iff_of_nodup (sound.nodup_signature listed) (sound'.nodup_signature listed')]
  constructor
  · intro same key
    refine Option.ext fun target => ?_
    rw [← sound.mem_signature_declared listed, same, sound'.mem_signature_declared listed', named]
  · rintro same ⟨key, declared⟩
    have target (target : FieldTarget) :
        (key, target.declared) ∈ type.signature ↔ (key, target.declared) ∈ type'.signature := by
      rw [sound.mem_signature_declared listed, same, sound'.mem_signature_declared listed', named]
    constructor
    · intro member
      obtain ⟨field, _, rfl⟩ := (sound.mem_signature listed).mp member
      exact (target field.target).mp member
    · intro member
      obtain ⟨field, _, rfl⟩ := (sound'.mem_signature listed').mp member
      exact (target field.target).mpr member

theorem Sound.mem_keys_of_below (sound : Sound types) (present : name ∈ KeyedList.keys types) {last : String}
    (below : types.Below name last) : last ∈ KeyedList.keys types := by
  cases below with
  | self => exact present
  | nested _ leads => exact (sound.nested _ _ _ leads).1

theorem below_congr (same : ∀ owner key, types.Below name owner → types.target? owner key = other.target? owner key)
    {last : String} : types.Below name last ↔ other.Below name last := by
  constructor
  · intro below
    induction below with
    | self => exact .self
    | nested above leads ih => exact ih.nested (nested?_eq_some.mpr (same _ _ above ▸ nested?_eq_some.mp leads))
  · intro below
    induction below with
    | self => exact .self
    | nested _ leads above => exact above.nested (nested?_eq_some.mpr (same _ _ above ▸ nested?_eq_some.mp leads))

theorem Formed.prefix_of_below (formed : Formed types) {last : String} (below : types.Below name last) :
    name.toList <+: last.toList := by
  induction below with
  | self => exact List.prefix_rfl
  | @nested owner key type _ leads ih =>
    rw [formed.named owner key type leads, nestedName, String.toList_append]
    exact ih.trans (List.prefix_append _ _)

theorem requests_congr (same : ∀ name key, types.nested? name key = other.nested? name key) (name : String)
    (branches : PathTree.Branches) : types.requests name branches = other.requests name branches := by
  induction branches using PathTree.branches_induction generalizing name with
  | nil => rw [requests, requests]
  | leaf key mapping rest others => rw [requests, requests, requestsBelow, requestsBelow, others]
  | node key children rest below others =>
    rw [requests, requests, requestsBelow, requestsBelow, same, others]
    cases other.nested? name key with
    | none => rfl
    | some type => simp only [below]

theorem get?_requestsAll {branches : PathTree.Branches} {owner : String}
    (each : ∀ origin tree, (origin, tree) ∈ trees →
      (origin, tree) = (name, branches) ∨ ∀ node, ¬ types.Descends origin tree owner node)
    (inside : (name, branches) ∈ trees) (wanted : String) :
    KeyedList.get? (owner, wanted) (types.requestsAll trees) =
      KeyedList.get? (owner, wanted) (types.requests name branches) := by
  -- Any other tree asks for nothing at the owner, so copies of the one tree are all that is found there.
  have kept (rest : List (String × PathTree.Branches)) (within : rest ⊆ trees) :
      KeyedList.get? (owner, wanted) (types.requestsAll rest) = none ∨
        KeyedList.get? (owner, wanted) (types.requestsAll rest) =
          KeyedList.get? (owner, wanted) (types.requests name branches) := by
    induction rest with
    | nil => exact .inl rfl
    | cons entry rest ih =>
      obtain ⟨origin, tree⟩ := entry
      rw [requestsAll, List.flatMap_cons, KeyedList.get?_append]
      have others := ih fun _ member => within (List.mem_cons_of_mem _ member)
      rw [requestsAll] at others
      rcases each origin tree (within List.mem_cons_self) with same | foreign
      · cases same
        rcases others with none | same <;> simp [*]
      · have silent : KeyedList.get? (owner, wanted) (types.requests origin tree) = none := by
          refine KeyedList.get?_eq_none fun asked => ?_
          obtain ⟨request, member, owned⟩ := List.mem_map.mp asked
          obtain ⟨last, node, _, _, descends, _, rfl⟩ := exists_of_mem_requests member
          cases owned
          exact foreign node descends
        rwa [silent, Option.none_or]
  obtain ⟨before, after, rfl⟩ := List.append_of_mem inside
  rw [requestsAll, List.flatMap_append, List.flatMap_cons, KeyedList.get?_append, KeyedList.get?_append]
  have early := kept before (List.subset_append_left _ _)
  have late := kept after fun _ member => List.mem_append_right before (List.mem_cons_of_mem _ member)
  rw [requestsAll] at early late
  rcases early with none | same <;> rcases late with none' | same' <;> simp [*]

/-- Types below a name that one tree alone asks for are those that the tree makes from nothing. -/
theorem target?_of_alone {path : List String} {branches : PathTree.Branches} (tidy : PathTree.Tidy path branches)
    (alone : ∀ owner key, types.Below name owner →
      types.target? owner key = KeyedList.get? (owner, key) (types.requests name branches))
    {owner : String} (below : types.Below name owner) (key : String) :
    types.target? owner key = (extendedAll [] [(name, branches)]).target? owner key := by
  have meets : Meets types (types.requestsAll [(name, branches)]) := by
    intro owner wanted target found
    rw [requestsAll_single] at found
    obtain ⟨last, node, _, _, descends, _, same⟩ := exists_of_mem_requests (KeyedList.mem_of_get? found)
    obtain ⟨rfl, rfl⟩ := Prod.mk.inj (Prod.mk.inj same).1
    exact (alone owner wanted (below_of_descends descends)).trans found
  have same := requestsAll_eq meets (meets_extendedAll (tidy_single tidy name))
  rw [target?_extendedAll_nil (tidy_single tidy name), ← same, alone owner key below, requestsAll_single]

theorem targets_eq_iff {path : List String} {branches : PathTree.Branches} (one : PathTree.Tidy path branches)
    (tidy : ∀ origin tree, (origin, tree) ∈ trees → ∃ path, PathTree.Tidy path tree) :
    (∀ owner key, (extendedAll [] [(name, branches)]).target? owner key = (extendedAll [] trees).target? owner key) ↔
      ∀ owner key, KeyedList.get? (owner, key) ((extendedAll [] trees).requests name branches) =
        KeyedList.get? (owner, key) ((extendedAll [] trees).requestsAll trees) := by
  have single := tidy_single one name
  constructor
  · intro same owner key
    have leads (owner key : String) :
        (extendedAll [] trees).nested? owner key = (extendedAll [] [(name, branches)]).nested? owner key := by
      refine Option.ext fun type => ?_
      rw [nested?_eq_some, nested?_eq_some, same]
    rw [requests_congr leads, ← requestsAll_single, ← target?_extendedAll_nil single, same,
      target?_extendedAll_nil tidy]
  · intro same owner key
    have meets : Meets (extendedAll [] trees) ((extendedAll [] trees).requestsAll [(name, branches)]) := by
      intro owner wanted target found
      rw [requestsAll_single, same] at found
      exact meets_extendedAll tidy owner wanted target found
    rw [target?_extendedAll_nil single, ← requestsAll_eq meets (meets_extendedAll single), requestsAll_single, same,
      target?_extendedAll_nil tidy]

end DerivedFields

/-! ## Grouped and cumulative synthesis -/

namespace Synthesis

/-- The types below a name are all those of the other synthesis, and have the same fields there. -/
structure AgreesBelow (synthesis : Synthesis) (name : String) (other : Synthesis) : Prop where
  names : ∀ last, last ∈ other.derived.map (·.name) ↔
    last ∈ synthesis.derived.map (·.name) ∧ synthesis.types.Below name last
  fields : ∀ type ∈ synthesis.derived, ∀ same ∈ other.derived, same.name = type.name →
    type.signature.Perm same.signature

theorem exists_derived {synthesis : Synthesis} {name : String} (present : name ∈ KeyedList.keys synthesis.types) :
    ∃ type ∈ synthesis.derived, type.name = name := by
  rw [← DerivedFields.names_toTypes] at present
  exact List.mem_map.mp present

theorem agreesBelow_iff {synthesis other : Synthesis} {name : String} {types : DerivedFields}
    (sound : DerivedFields.Sound synthesis.types) (sound' : DerivedFields.Sound other.types)
    (present : name ∈ KeyedList.keys synthesis.types)
    (same : ∀ owner key, synthesis.types.Below name owner →
      synthesis.types.target? owner key = types.target? owner key)
    (keys : ∀ last, last ∈ KeyedList.keys types ↔ types.Below name last)
    (keys' : ∀ last, last ∈ KeyedList.keys other.types ↔ other.types.Below name last) :
    synthesis.AgreesBelow name other ↔ ∀ owner key, types.target? owner key = other.types.target? owner key := by
  constructor
  · intro agrees owner key
    by_cases listed : owner ∈ KeyedList.keys other.types
    · obtain ⟨type', inside', named⟩ := exists_derived listed
      obtain ⟨old, below⟩ := (agrees.names owner).mp (List.mem_map.mpr ⟨type', inside', named⟩)
      obtain ⟨type, inside, rfl⟩ := List.mem_map.mp old
      rw [← same type.name key below]
      have perm := agrees.fields type inside type' inside' named
      exact (sound.signature_perm_iff sound' inside inside' named).mp perm key
    · -- The owner is not below the name in any of the types, so none of them has it.
      have elsewhere : owner ∉ KeyedList.keys types := by
        intro found
        have below := (DerivedFields.below_congr same).mpr ((keys owner).mp found)
        obtain ⟨type, inside, named⟩ := exists_derived (sound.mem_keys_of_below present below)
        have known := (agrees.names owner).mpr ⟨List.mem_map.mpr ⟨type, inside, named⟩, below⟩
        rw [derived, DerivedFields.names_toTypes] at known
        exact listed known
      rw [DerivedFields.target?_eq_none listed, DerivedFields.target?_eq_none elsewhere]
  · intro agree
    have below (last : String) : last ∈ other.derived.map (·.name) ↔ synthesis.types.Below name last := by
      rw [derived, DerivedFields.names_toTypes, keys', ← DerivedFields.below_congr fun owner key _ => agree owner key,
        DerivedFields.below_congr same]
    refine ⟨fun last => ?_, fun type inside type' inside' named => ?_⟩
    · rw [below, derived, DerivedFields.names_toTypes]
      exact ⟨fun found => ⟨sound.mem_keys_of_below present found, found⟩, And.right⟩
    · refine (sound.signature_perm_iff sound' inside inside' named).mpr fun key => ?_
      have found := (below type.name).mp (List.mem_map.mpr ⟨type', inside', named⟩)
      rw [same type.name key found, agree]

end Synthesis

namespace Schema

def callsOf (schema : Schema) (entity : String) : List (String × List FieldMapping) :=
  (schema.mappingsOf entity).map fun fields => (entity, fields)

def treeOf (schema : Schema) (entity : String) : PathTree.Branches :=
  PathTree.build (schema.mappingsOf entity).flatten

end Schema

namespace Catalog

variable {catalog : Catalog} {schema : Schema} {closure : List String} {synthesis : Synthesis} {entity : String}

/-- No node that is merged for another entity belongs to a type below the entity. -/
def Undisturbed (catalog : Catalog) (schema : Schema) (types : DerivedFields) (entity : String) : Prop :=
  ∀ other fields, (other, fields) ∈ schema.entityFields → other ≠ entity →
    ∀ trees, catalog.contributionsOf other fields = .ok trees → ∀ origin tree, (origin, tree) ∈ trees →
      ∀ name node, types.Descends origin tree name node → ¬ types.Below entity name

theorem target?_synthesis (built : catalog.synthesis schema closure = .ok synthesis)
    (absent : catalog.find? entity = none) (mapped : schema.mappingsOf entity ≠ [])
    (undisturbed : catalog.Undisturbed schema synthesis.types entity) {owner : String}
    (below : synthesis.types.Below entity owner) (key : String) :
    synthesis.types.target? owner key =
      KeyedList.get? (owner, key) (synthesis.types.requests entity (schema.treeOf entity)) := by
  obtain ⟨trees, merged, result⟩ := synthesis_ok built
  have tidy : ∀ name tree, (name, tree) ∈ trees → ∃ path, PathTree.Tidy path tree :=
    fun name tree member => tidy_of_mem_contributions merged member
  have kept (owner key : String) : synthesis.types.target? owner key =
      (DerivedFields.extendedAll [] trees).target? owner key := by
    rw [DerivedFields.target?, result, field?_derivePlaceholders, DerivedFields.target?]
  have grown : DerivedFields.Grows (DerivedFields.extendedAll [] trees) synthesis.types := by
    intro name key field found
    rwa [result, field?_derivePlaceholders]
  have grouped := KeyedList.mem_of_get? (Schema.get?_entityFields mapped)
  have inside : (entity, schema.treeOf entity) ∈ trees := mem_contributions merged absent grouped
  rw [kept, DerivedFields.target?_extendedAll tidy grown, DerivedFields.target?_eq_none (by simp [KeyedList.keys]),
    Option.none_or]
  refine DerivedFields.get?_requestsAll (fun origin tree member => ?_) inside key
  obtain ⟨groups, each, rfl⟩ := map_eq_ok.mp merged
  obtain ⟨group, listed, within⟩ := List.mem_flatten.mp member
  obtain ⟨⟨other, fields⟩, given, own⟩ := (mem_of_mapM each group).mp listed
  -- The entity has just one tree; the trees of other entities reach no type below it.
  by_cases same : other = entity
  · subst same
    have found := (KeyedList.get?_eq_some schema.nodup_entityFields).mpr given
    cases found.symm.trans (Schema.get?_entityFields mapped)
    simp only [contributionsOf, absent, Except.ok.injEq] at own
    exact .inl (List.mem_singleton.mp (own ▸ within))
  · refine .inr fun node descends => ?_
    exact undisturbed other fields given same group own origin tree within owner node descends below

end Catalog

namespace Schema

variable {schema : Schema} {entity : String}

theorem exists_of_mem_callsOf {name : String} {tree : PathTree.Branches}
    (member : (name, tree) ∈ Synthesis.trees (schema.callsOf entity)) :
    name = entity ∧ ∃ fields ∈ schema.mappingsOf entity, tree = PathTree.build fields := by
  rw [Synthesis.trees, callsOf, List.map_map] at member
  obtain ⟨fields, own, same⟩ := List.mem_map.mp member
  cases same
  exact ⟨rfl, fields, own, rfl⟩

theorem tidy_callsOf : ∀ name tree, (name, tree) ∈ Synthesis.trees (schema.callsOf entity) →
    ∃ path, PathTree.Tidy path tree := by
  intro name tree member
  obtain ⟨_, fields, _, rfl⟩ := exists_of_mem_callsOf member
  exact ⟨[], PathTree.tidy_build fields⟩

theorem mem_visits_callsOf {visit : Visit} : visit ∈ Synthesis.visits (schema.callsOf entity) ↔
    ∃ fields ∈ schema.mappingsOf entity, visit ∈ Visit.ofTree entity (PathTree.build fields) := by
  simp [Synthesis.visits, Visit.ofTrees, Synthesis.trees, callsOf]

theorem mem_ofTree_treeOf (mapped : schema.mappingsOf entity ≠ [])
    (survive : ∀ fields ∈ schema.mappingsOf entity,
      PathTree.Survives (PathTree.build fields) (schema.treeOf entity)) (visit : Visit) :
    visit ∈ Visit.ofTree entity (schema.treeOf entity) ↔ visit ∈ Synthesis.visits (schema.callsOf entity) := by
  rw [mem_visits_callsOf, Visit.ofTree, List.mem_cons]
  simp only [Visit.ofTree, List.mem_cons]
  rw [treeOf, Visit.mem_ofBranches (PathTree.tidy_build _)]
  simp only [Visit.mem_ofBranches (PathTree.tidy_build _)]
  constructor
  · rintro (rfl | ⟨mapping, leaf, rest, whole, visited⟩)
    · obtain ⟨fields, own⟩ := List.exists_mem_of_ne_nil _ mapped
      exact ⟨fields, own, .inl rfl⟩
    · obtain ⟨fields, own, survives⟩ := PathTree.exists_mem_survivors (PathTree.mem_leavesOf_build.mp leaf)
      exact ⟨fields, own, .inr ⟨mapping, PathTree.mem_leavesOf_build.mpr survives, rest, whole, visited⟩⟩
  · rintro ⟨fields, own, rfl | ⟨mapping, leaf, rest, whole, visited⟩⟩
    · exact .inl rfl
    · obtain ⟨other, there, same⟩ := survive fields own mapping leaf
      exact .inr ⟨other, there, rest, same.trans whole, visited⟩

theorem targets_eq_of_survive (mapped : schema.mappingsOf entity ≠ [])
    (apart : Visit.Apart (Synthesis.visits (schema.callsOf entity)))
    (survive : ∀ fields ∈ schema.mappingsOf entity,
      PathTree.Survives (PathTree.build fields) (schema.treeOf entity)) (owner key : String) :
    (DerivedFields.extendedAll [] [(entity, schema.treeOf entity)]).target? owner key =
      (DerivedFields.extendedAll [] (Synthesis.trees (schema.callsOf entity))).target? owner key := by
  have same := mem_ofTree_treeOf mapped survive
  have visits : Visit.ofTrees [(entity, schema.treeOf entity)] = Visit.ofTree entity (schema.treeOf entity) := by
    simp [Visit.ofTrees]
  have shown : DerivedFields.Shown (Synthesis.visits (schema.callsOf entity))
      (DerivedFields.extendedAll [] (Synthesis.trees (schema.callsOf entity))) :=
    DerivedFields.shown_extendedAll_nil apart
  have shown' : DerivedFields.Shown (Visit.ofTree entity (schema.treeOf entity))
      (DerivedFields.extendedAll [] [(entity, schema.treeOf entity)]) := by
    have apart' : Visit.Apart (Visit.ofTree entity (schema.treeOf entity)) :=
      apart.subset fun visit member => (same visit).mp member
    rw [← visits] at apart' ⊢
    exact DerivedFields.shown_extendedAll_nil apart'
  refine Option.ext fun target => ?_
  rw [shown.targets, shown'.targets, DerivedFields.Asked, same, same, DerivedFields.Asked]

end Schema

namespace Catalog

variable {catalog : Catalog} {schema : Schema} {closure : List String} {synthesis : Synthesis} {entity : String}

theorem agreesBelow_iff_targets (built : catalog.synthesis schema closure = .ok synthesis)
    (absent : catalog.find? entity = none) (mapped : schema.mappingsOf entity ≠ [])
    (undisturbed : catalog.Undisturbed schema synthesis.types entity) :
    synthesis.AgreesBelow entity ⟨DerivedFields.extendedAll [] (Synthesis.trees (schema.callsOf entity)), false⟩ ↔
      ∀ owner key, (DerivedFields.extendedAll [] [(entity, schema.treeOf entity)]).target? owner key =
        (DerivedFields.extendedAll [] (Synthesis.trees (schema.callsOf entity))).target? owner key := by
  have one : PathTree.Tidy [] (schema.treeOf entity) := PathTree.tidy_build _
  have present : entity ∈ KeyedList.keys synthesis.types := by
    obtain ⟨trees, merged, _⟩ := synthesis_ok built
    have grouped := KeyedList.mem_of_get? (Schema.get?_entityFields mapped)
    exact mem_keys_of_contribution merged built (mem_contributions merged absent grouped)
  have alone (owner key : String) (below : synthesis.types.Below entity owner) :=
    target?_synthesis built absent mapped undisturbed below key
  have named (name : String) (tree : PathTree.Branches) (member : (name, tree) ∈ [(entity, schema.treeOf entity)]) :
      name = entity := by
    cases List.mem_singleton.mp member
    rfl
  have calls (name : String) (tree : PathTree.Branches)
      (member : (name, tree) ∈ Synthesis.trees (schema.callsOf entity)) : name = entity :=
    (Schema.exists_of_mem_callsOf member).1
  have some : Synthesis.trees (schema.callsOf entity) ≠ [] := by simpa [Synthesis.trees, Schema.callsOf] using mapped
  exact Synthesis.agreesBelow_iff (sound_synthesis built) (DerivedFields.sound_extendedAll Schema.tidy_callsOf) present
    (fun owner key below => DerivedFields.target?_of_alone one alone below key)
    (fun last => DerivedFields.mem_keys_extendedAll_iff (DerivedFields.tidy_single one entity)
      (List.cons_ne_nil _ _) named)
    (fun last => DerivedFields.mem_keys_extendedAll_iff Schema.tidy_callsOf some calls)

/--
The types that the synthesis of a schema makes for an undisturbed entity that the catalog lacks, beside
those that calls make which merge the own tree of each property in turn. They agree just if the one tree
of all mappings, followed through the latter types, asks for every field first as the own trees do; and
they do agree if all leaves of the own trees survive in the one tree and no key of a type is visited both
as a leaf and as a subtree.
-/
theorem synthesis_agrees_iff (built : catalog.synthesis schema closure = .ok synthesis)
    (absent : catalog.find? entity = none) (mapped : schema.mappingsOf entity ≠ [])
    (undisturbed : catalog.Undisturbed schema synthesis.types entity) :
    ∃ own, Synthesis.synthesizeAll {} (schema.callsOf entity) = .ok own ∧
      (synthesis.AgreesBelow entity own ↔ ∀ type key,
        KeyedList.get? (type, key) (own.types.requests entity (schema.treeOf entity)) =
          KeyedList.get? (type, key) (own.types.requestsAll (Synthesis.trees (schema.callsOf entity)))) ∧
      (Visit.Apart (Synthesis.visits (schema.callsOf entity)) →
        (∀ fields ∈ schema.mappingsOf entity, PathTree.Survives (PathTree.build fields) (schema.treeOf entity)) →
        synthesis.AgreesBelow entity own) := by
  have agrees := agreesBelow_iff_targets built absent mapped undisturbed
  have asked := agrees.trans (DerivedFields.targets_eq_iff (PathTree.tidy_build _) Schema.tidy_callsOf)
  refine ⟨_, Synthesis.synthesizeAll_eq rfl _, asked, fun apart survive => agrees.mpr ?_⟩
  exact Schema.targets_eq_of_survive mapped apart survive

theorem formed_synthesis (built : catalog.synthesis schema closure = .ok synthesis) :
    DerivedFields.Formed synthesis.types :=
  synthesis_induction DerivedFields.formed_nil (fun _ name formed => formed.opened name)
    (fun _ name key child nonempty filled formed => formed.entered name key child nonempty filled) built

theorem undisturbed_of_names (built : catalog.synthesis schema closure = .ok synthesis)
    (apart : ∀ other fields, (other, fields) ∈ schema.entityFields → other ≠ entity →
      ∀ trees, catalog.contributionsOf other fields = .ok trees → ∀ origin tree, (origin, tree) ∈ trees →
        ¬ origin.toList <+: entity.toList ∧ ¬ entity.toList <+: origin.toList) :
    catalog.Undisturbed schema synthesis.types entity := by
  intro other fields grouped different trees own origin tree member name node descends below
  have formed := formed_synthesis built
  obtain ⟨shorter, longer⟩ := apart other fields grouped different trees own origin tree member
  have here := formed.prefix_of_below below
  have there := formed.prefix_of_below (DerivedFields.below_of_descends descends)
  exact (List.prefix_or_prefix_of_prefix here there).elim longer shorter

def facetCatalog : Catalog where
  types := [⟨"facet", [⟨"p", "Edm.String", true⟩], none⟩]
  names_distinct := List.nodup_singleton "facet"

def mappedTo (entity : String) (fields : List FieldMapping) : Property :=
  { name := "p", type := .string, entity := some ⟨entity, fields⟩ }

def sharingSchema : Schema where
  contentCategory := some "people"
  properties := [
    mappedTo "gadget" [⟨"x.y", { headers := ["Y"] }⟩, ⟨"w", { headers := ["W"] }⟩],
    mappedTo "tool" [⟨"x", { headers := ["T"] }⟩],
    mappedTo "gadget" [⟨"x.z", { headers := ["Z"] }⟩, ⟨"w", { headers := ["V"] }⟩]]

theorem synthesis_agrees_sharing : ∃ synthesis own, facetCatalog.synthesis sharingSchema [] = .ok synthesis ∧
    facetCatalog.find? "gadget" = none ∧ sharingSchema.mappingsOf "gadget" ≠ [] ∧
    facetCatalog.Undisturbed sharingSchema synthesis.types "gadget" ∧
    Synthesis.synthesizeAll {} (sharingSchema.callsOf "gadget") = .ok own ∧ synthesis.AgreesBelow "gadget" own := by
  obtain ⟨synthesis, built⟩ : ∃ synthesis, facetCatalog.synthesis sharingSchema [] = .ok synthesis := ⟨_, rfl⟩
  have absent : facetCatalog.find? "gadget" = none := by decide +kernel
  have mapped : sharingSchema.mappingsOf "gadget" ≠ [] := by decide +kernel
  have undisturbed : facetCatalog.Undisturbed sharingSchema synthesis.types "gadget" := by
    refine undisturbed_of_names built fun other fields grouped different trees own origin tree member => ?_
    have entities : ∀ group ∈ sharingSchema.entityFields, group.1 = "gadget" ∨ group.1 = "tool" := by decide +kernel
    obtain rfl := (entities _ grouped).resolve_left different
    have none : facetCatalog.find? "tool" = none := by decide +kernel
    simp only [contributionsOf, none, Except.ok.injEq] at own
    cases List.mem_singleton.mp (own ▸ member)
    decide +kernel
  obtain ⟨own, done, _, agree⟩ := synthesis_agrees_iff built absent mapped undisturbed
  have apart : Visit.Apart (Synthesis.visits (sharingSchema.callsOf "gadget")) := by decide +kernel
  refine ⟨synthesis, own, built, absent, mapped, undisturbed, done, agree apart ?_⟩
  unfold PathTree.Survives
  decide +kernel

def displacingSchema : Schema where
  contentCategory := some "people"
  properties := [
    mappedTo "gadget" [⟨"x", { headers := ["X"] }⟩],
    mappedTo "gadget" [⟨"x.y", { headers := ["Y"] }⟩]]

/-- Property by property the first leaf stays; in the one tree the later path displaces it. -/
theorem synthesis_displaces_leaf : ∃ synthesis own, facetCatalog.synthesis displacingSchema [] = .ok synthesis ∧
    facetCatalog.find? "gadget" = none ∧ displacingSchema.mappingsOf "gadget" ≠ [] ∧
    facetCatalog.Undisturbed displacingSchema synthesis.types "gadget" ∧
    Synthesis.synthesizeAll {} (displacingSchema.callsOf "gadget") = .ok own ∧
    synthesis.derived = [⟨"gadget", [⟨"x", "x", .nested "gadgetX"⟩]⟩, ⟨"gadgetX", [⟨"y", "y", .text⟩]⟩] ∧
    own.derived = [⟨"gadget", [⟨"x", "x", .text⟩]⟩] ∧
    ¬ synthesis.AgreesBelow "gadget" own := by
  let grouped : Synthesis := ⟨[("gadget", [⟨"x", "x", .nested "gadgetX"⟩]), ("gadgetX", [⟨"y", "y", .text⟩])], false⟩
  let own : Synthesis := ⟨[("gadget", [⟨"x", "x", .text⟩])], false⟩
  have done : (Synthesis.synthesizeAll {} (displacingSchema.callsOf "gadget")).toOption = some own := by decide +kernel
  have built : (facetCatalog.synthesis displacingSchema []).toOption = some grouped := by decide +kernel
  refine ⟨grouped, own, toOption_eq_some.mp built, by decide +kernel, by decide +kernel, ?_,
    toOption_eq_some.mp done, rfl, rfl, fun agrees => ?_⟩
  · intro other fields listed different
    have entities : ∀ group ∈ displacingSchema.entityFields, group.1 = "gadget" := by decide +kernel
    exact absurd (entities _ listed) different
  · have leads : grouped.types.nested? "gadget" "x" = some "gadgetX" := by decide +kernel
    have below : grouped.types.Below "gadget" "gadgetX" := .nested .self leads
    have known : "gadgetX" ∉ own.derived.map (·.name) := by decide +kernel
    exact known ((agrees.names "gadgetX").mpr ⟨by decide +kernel, below⟩)

end Catalog

end ProfileConnector
