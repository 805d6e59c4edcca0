import ProfileConnector.Proofs.Types.Synthesis

/-!
Merging as a union. What a sequence of calls visits can be said without any derived types: names of
types, and keys below them as leaves or as subtrees. Where no key of a type is visited as both, the
derived types are just what is visited; so the order of the calls decides nothing but the order of the
types and fields and the numbers in variable names.
-/

namespace ProfileConnector

inductive Visit where
  | type (name : String)
  | leaf (name key : String)
  | subtree (name key : String)
  deriving DecidableEq, Repr

namespace Visit

mutual

def ofBranches (name : String) : List (String × PathTree) → List Visit
  | [] => []
  | (key, child) :: rest => ofBranch name key child ++ ofBranches name rest

def ofBranch (name key : String) : PathTree → List Visit
  | .leaf _ => [.leaf name key]
  | .node children =>
    let nested := name ++ Identifier.memberName key
    [.subtree name key, .type nested] ++ ofBranches nested children

end

/-- What merging a tree into the type of a name visits. -/
def ofTree (name : String) (tree : PathTree.Branches) : List Visit := .type name :: ofBranches name tree

def ofTrees (trees : List (String × PathTree.Branches)) : List Visit :=
  trees.flatMap fun (name, tree) => ofTree name tree

def keyed? : Visit → Option (String × String)
  | .leaf name key => some (name, key)
  | _ => none

/-- No key of a type is visited both as a leaf and as a subtree. -/
def Apart (visits : List Visit) : Prop := ∀ name key, .leaf name key ∈ visits → .subtree name key ∉ visits

instance (visits : List Visit) : Decidable (Apart visits) :=
  decidable_of_iff (∀ visit ∈ visits, ∀ name ∈ visit.keyed?, .subtree name.1 name.2 ∉ visits) <| by
    constructor
    · intro each name key leaf
      exact each _ leaf (name, key) rfl
    · rintro apart (name | ⟨name, key⟩ | ⟨name, key⟩) member _ same <;> cases same
      exact apart name key member

theorem Apart.subset {visits others : List Visit} (apart : Apart others) (within : visits ⊆ others) : Apart visits :=
  fun name key leaf subtree => apart name key (within leaf) (within subtree)

end Visit

namespace DerivedFields

variable {types : DerivedFields} {visits : List Visit} {name key : String}

/-! ## Targets -/

def target? (types : DerivedFields) (name key : String) : Option FieldTarget :=
  (types.field? name key).map (·.target)

@[simp] theorem target?_opened (types : DerivedFields) (name other key : String) :
    (types.opened name).target? other key = types.target? other key := by
  rw [target?, field?_opened, target?]

theorem nested?_eq_some {type : String} :
    types.nested? name key = some type ↔ types.target? name key = some (.nested type) := by
  rw [nested?, target?]
  cases types.field? name key with
  | none => simp
  | some field => cases shape : field.target <;> simp [DerivedField.nestedType?, shape]

theorem target?_withField (types : DerivedFields) (name key : String) (target : FieldTarget)
    (other wanted : String) :
    (types.withField name key target).target? other wanted =
      (types.target? other wanted).or (if name = other ∧ key = wanted then some target else none) := by
  unfold withField
  cases found : types.field? name key with
  | some field =>
    by_cases same : name = other ∧ key = wanted
    · obtain ⟨rfl, rfl⟩ := same
      simp [target?, found]
    · simp [same]
  | none =>
    rw [target?, field?, fieldsOf_adding]
    by_cases same : name = other
    · subst same
      rw [if_pos rfl, List.find?_append]
      cases old : (types.fieldsOf name).find? fun field => field.name == wanted with
      | some field => simp [target?, field?, old]
      | none => by_cases here : key = wanted <;> simp [target?, field?, old, here]
    · rw [if_neg same, target?, field?]
      simp [same]

theorem target?_entered (types : DerivedFields) (name key : String) (child : PathTree) (other wanted : String) :
    (types.entered name key child).target? other wanted =
      (types.target? other wanted).or
        (if name = other ∧ key = wanted then some (branchTarget name key child) else none) := by
  rw [target?, field?_entered, ← target?_withField, target?]

theorem mem_keys_withField_iff {other : String} (present : name ∈ KeyedList.keys types) (target : FieldTarget) :
    other ∈ KeyedList.keys (types.withField name key target) ↔ other ∈ KeyedList.keys types := by
  unfold withField
  split
  · exact Iff.rfl
  · rw [adding, KeyedList.mem_keys_put]
    exact ⟨fun member => member.elim (fun same => same ▸ present) id, Or.inr⟩

/-! ## Types that show visits -/

def Asked (visits : List Visit) (name key : String) (target : FieldTarget) : Prop :=
  (.leaf name key ∈ visits ∧ target = .text) ∨ (.subtree name key ∈ visits ∧ target = .nested (nestedName name key))

structure Shown (visits : List Visit) (types : DerivedFields) : Prop where
  names : ∀ name, name ∈ KeyedList.keys types ↔ .type name ∈ visits
  targets : ∀ name key target, types.target? name key = some target ↔ Asked visits name key target

theorem shown_nil : Shown [] [] where
  names name := by simp [KeyedList.keys]
  targets name key target := by simp [target?, field?, fieldsOf, KeyedList.get?, Asked]

theorem Shown.opened (shown : Shown visits types) (name : String) :
    Shown (visits ++ [.type name]) (types.opened name) where
  names other := by
    rw [mem_keys_opened, shown.names]
    simp [or_comm]
  targets other key target := by
    rw [target?_opened, shown.targets]
    simp [Asked]

theorem asked_append_iff {new : List Visit} {other wanted : String} {target : FieldTarget}
    (leaf : .leaf other wanted ∉ new) (subtree : .subtree other wanted ∉ new) :
    Asked (visits ++ new) other wanted target ↔ Asked visits other wanted target := by
  simp [Asked, leaf, subtree]

theorem Asked.unique {first second : FieldTarget} (apart : Visit.Apart visits) (one : Asked visits name key first)
    (other : Asked visits name key second) : first = second := by
  rcases one with ⟨leaf, rfl⟩ | ⟨subtree, rfl⟩ <;> rcases other with ⟨leaf', rfl⟩ | ⟨subtree', rfl⟩
  · rfl
  · exact absurd subtree' (apart name key leaf)
  · exact absurd subtree (apart name key leaf')
  · rfl

def enteredVisits (name key : String) : PathTree → List Visit
  | .leaf _ => [.leaf name key]
  | .node _ => [.subtree name key, .type (nestedName name key)]

theorem asked_enteredVisits (visits : List Visit) (name key : String) (child : PathTree) :
    Asked (visits ++ enteredVisits name key child) name key (branchTarget name key child) := by
  cases child <;> simp [Asked, enteredVisits, branchTarget]

theorem Asked.append {target : FieldTarget} (asked : Asked visits name key target) (new : List Visit) :
    Asked (visits ++ new) name key target :=
  asked.imp (fun ⟨leaf, same⟩ => ⟨List.mem_append_left new leaf, same⟩)
    fun ⟨subtree, same⟩ => ⟨List.mem_append_left new subtree, same⟩

theorem Shown.targets_entered (shown : Shown visits types) {child : PathTree}
    (apart : Visit.Apart (visits ++ enteredVisits name key child)) (other wanted : String) (target : FieldTarget) :
    (types.entered name key child).target? other wanted = some target ↔
      Asked (visits ++ enteredVisits name key child) other wanted target := by
  rw [target?_entered]
  by_cases same : name = other ∧ key = wanted
  · obtain ⟨rfl, rfl⟩ := same
    -- An older field has the target that the branch asks for, or the visits would not be apart.
    have reached : (types.target? name key).or (some (branchTarget name key child)) =
        some (branchTarget name key child) := by
      cases found : types.target? name key with
      | none => rfl
      | some old =>
        have before := ((shown.targets name key old).mp found).append (enteredVisits name key child)
        rw [before.unique apart (asked_enteredVisits visits name key child), Option.some_or]
    rw [if_pos ⟨rfl, rfl⟩, reached, Option.some_inj]
    constructor
    · rintro rfl
      exact asked_enteredVisits visits name key child
    · exact (asked_enteredVisits visits name key child).unique apart
  · rw [if_neg same, Option.or_none, shown.targets]
    refine (asked_append_iff ?_ ?_).symm
    all_goals
      intro member
      cases child <;> simp [enteredVisits] at member
      exact same ⟨member.1.symm, member.2.symm⟩

theorem Shown.entered (shown : Shown visits types) (present : .type name ∈ visits) {child : PathTree}
    (apart : Visit.Apart (visits ++ enteredVisits name key child)) :
    Shown (visits ++ enteredVisits name key child) (types.entered name key child) where
  targets := shown.targets_entered apart
  names other := by
    have listed : name ∈ KeyedList.keys types := (shown.names name).mpr present
    have target := (shown.targets_entered apart name key _).mpr (asked_enteredVisits visits name key child)
    rw [target?, field?_entered, ← target?] at target
    cases child with
    | leaf mapping =>
      change other ∈ KeyedList.keys (types.withField name key .text) ↔ _
      rw [mem_keys_withField_iff listed, shown.names]
      simp [enteredVisits]
    | node children =>
      rw [branchTarget, ← nested?_eq_some] at target
      simp only [DerivedFields.entered, branchTarget, target]
      rw [mem_keys_opened, mem_keys_withField_iff listed, shown.names]
      simp [enteredVisits, or_comm]

theorem Shown.visit {branches : PathTree.Branches} (shown : Shown visits types) (present : .type name ∈ visits)
    (apart : Visit.Apart (visits ++ Visit.ofBranches name branches)) :
    Shown (visits ++ Visit.ofBranches name branches) (visit types name branches) := by
  -- The visits so far grow along the branches and, at a node, first into its subtree.
  induction branches using PathTree.branches_induction generalizing visits types name with
  | nil => simpa [Visit.ofBranches, DerivedFields.visit] using shown
  | leaf key mapping rest others =>
    have split : visits ++ Visit.ofBranches name ((key, .leaf mapping) :: rest) =
        visits ++ enteredVisits name key (.leaf mapping) ++ Visit.ofBranches name rest := by
      simp [Visit.ofBranches, Visit.ofBranch, enteredVisits]
    rw [split] at apart ⊢
    rw [DerivedFields.visit, visitChild_leaf]
    exact others (shown.entered present (apart.subset (List.subset_append_left _ _)))
      (List.mem_append_left _ present) apart
  | node key children rest below others =>
    have split : visits ++ Visit.ofBranches name ((key, .node children) :: rest) =
        visits ++ enteredVisits name key (.node children) ++ Visit.ofBranches (nestedName name key) children ++
          Visit.ofBranches name rest := by
      simp [Visit.ofBranches, Visit.ofBranch, enteredVisits, nestedName]
    rw [split] at apart ⊢
    have within := apart.subset (List.subset_append_left _ _)
    have entered := shown.entered present (within.subset (List.subset_append_left _ _))
    have target := (entered.targets name key _).mpr (asked_enteredVisits visits name key (.node children))
    rw [branchTarget, ← nested?_eq_some] at target
    rw [DerivedFields.visit, visitChild_node]
    simp only [target]
    refine others (below entered ?_ within) ?_ apart
    · simp [enteredVisits]
    · exact List.mem_append_left _ (List.mem_append_left _ present)

theorem Shown.extendedAll {trees : List (String × PathTree.Branches)} (shown : Shown visits types)
    (apart : Visit.Apart (visits ++ Visit.ofTrees trees)) :
    Shown (visits ++ Visit.ofTrees trees) (types.extendedAll trees) := by
  induction trees generalizing visits types with
  | nil => simpa [Visit.ofTrees, DerivedFields.extendedAll] using shown
  | cons entry rest ih =>
    obtain ⟨name, tree⟩ := entry
    have split : visits ++ Visit.ofTrees ((name, tree) :: rest) =
        visits ++ [.type name] ++ Visit.ofBranches name tree ++ Visit.ofTrees rest := by
      simp [Visit.ofTrees, Visit.ofTree]
    rw [split] at apart ⊢
    have within := apart.subset (List.subset_append_left _ _)
    exact ih ((shown.opened name).visit (by simp) within) apart

theorem shown_extendedAll_nil {trees : List (String × PathTree.Branches)} (apart : Visit.Apart (Visit.ofTrees trees)) :
    Shown (Visit.ofTrees trees) (extendedAll [] trees) := shown_nil.extendedAll apart

end DerivedFields

/-! ## Sequences of calls -/

def DerivedType.signature (type : DerivedType) : List (String × String) :=
  type.fields.map fun field => (field.name, field.declaredType)

theorem DerivedField.declaredType_eq (field : DerivedField) (declared : String) :
    field.declaredType = declared ↔ (field.target = .text ∧ declared = "Edm.String") ∨
      ∃ type, field.target = .nested type ∧ declared = "graph." ++ type := by
  cases shape : field.target with
  | text => simp [DerivedField.declaredType, shape, eq_comm]
  | nested type =>
    have qualified : DeclaredType.catalogQualifier ++ "." = "graph." := by decide
    simp [DerivedField.declaredType, shape, qualified, eq_comm]

namespace DerivedFields

variable {types : DerivedFields} {visits : List Visit}

theorem Sound.nodup_signature (sound : Sound types) {type : DerivedType} (listed : type ∈ types.toTypes) :
    type.signature.Nodup := by
  have names := sound.names type.name
  rw [sound.fieldsOf_of_mem listed] at names
  refine List.Nodup.of_map Prod.fst ?_
  simpa [DerivedType.signature, Function.comp_def] using names

theorem Sound.mem_signature (sound : Sound types) {type : DerivedType} (listed : type ∈ types.toTypes)
    {key declared : String} : (key, declared) ∈ type.signature ↔
      ∃ field, types.field? type.name key = some field ∧ field.declaredType = declared := by
  rw [DerivedType.signature, List.mem_map, ← sound.fieldsOf_of_mem listed]
  constructor
  · rintro ⟨field, member, pair⟩
    cases pair
    exact ⟨field, sound.field?_of_mem member, rfl⟩
  · rintro ⟨field, found, rfl⟩
    have named : field.name = key := by simpa using List.find?_some found
    exact ⟨field, List.mem_of_find?_eq_some found, by rw [named]⟩

theorem Shown.mem_signature (shown : Shown visits types) (sound : Sound types) {type : DerivedType}
    (listed : type ∈ types.toTypes) (key declared : String) : (key, declared) ∈ type.signature ↔
      (.leaf type.name key ∈ visits ∧ declared = "Edm.String") ∨
      (.subtree type.name key ∈ visits ∧ declared = "graph." ++ (type.name ++ Identifier.memberName key)) := by
  have target (wanted : FieldTarget) :
      (∃ field, types.field? type.name key = some field ∧ field.target = wanted) ↔ Asked visits type.name key wanted := by
    rw [← shown.targets, target?, Option.map_eq_some_iff]
  rw [sound.mem_signature listed]
  constructor
  · rintro ⟨field, found, shape⟩
    rcases (field.declaredType_eq declared).mp shape with ⟨text, rfl⟩ | ⟨nested, other, rfl⟩
    · rcases (target _).mp ⟨field, found, text⟩ with ⟨leaf, _⟩ | ⟨_, different⟩
      · exact Or.inl ⟨leaf, rfl⟩
      · cases different
    · rcases (target _).mp ⟨field, found, other⟩ with ⟨_, different⟩ | ⟨subtree, same⟩
      · cases different
      · cases same
        exact Or.inr ⟨subtree, rfl⟩
  · rintro (⟨leaf, rfl⟩ | ⟨subtree, rfl⟩)
    · obtain ⟨field, found, text⟩ := (target .text).mpr (Or.inl ⟨leaf, rfl⟩)
      exact ⟨field, found, (field.declaredType_eq _).mpr (Or.inl ⟨text, rfl⟩)⟩
    · obtain ⟨field, found, nested⟩ := (target _).mpr (Or.inr ⟨subtree, rfl⟩)
      exact ⟨field, found, (field.declaredType_eq _).mpr (Or.inr ⟨_, nested, rfl⟩)⟩

end DerivedFields

namespace Synthesis

/-- Synthesizes the types of some entities in turn, each from the tree of its mappings. -/
def synthesizeAll (synthesis : Synthesis) : List (String × List FieldMapping) → Except SynthesisFault Synthesis
  | [] => .ok synthesis
  | (name, fields) :: rest => do synthesizeAll (← synthesis.synthesize name (PathTree.build fields)) rest

def trees (calls : List (String × List FieldMapping)) : List (String × PathTree.Branches) :=
  calls.map fun (name, fields) => (name, PathTree.build fields)

/-- What a sequence of calls visits. -/
def visits (calls : List (String × List FieldMapping)) : List Visit := Visit.ofTrees (trees calls)

theorem mem_visits_of_perm {calls others : List (String × List FieldMapping)} (perm : others.Perm calls)
    (visit : Visit) : visit ∈ visits others ↔ visit ∈ visits calls :=
  ((perm.map _).flatMap_right _).mem_iff

theorem synthesizeAll_eq {synthesis : Synthesis} (growing : synthesis.frozen = false)
    (calls : List (String × List FieldMapping)) :
    synthesis.synthesizeAll calls = .ok { synthesis with types := synthesis.types.extendedAll (trees calls) } := by
  induction calls generalizing synthesis with
  | nil => rfl
  | cons call rest ih =>
    obtain ⟨name, fields⟩ := call
    have step : synthesis.synthesize name (PathTree.build fields) =
        .ok { synthesis with types := synthesis.types.extended name (PathTree.build fields) } :=
      if_neg (by simp [growing])
    rw [synthesizeAll, step, Outcome.ok_bind]
    exact ih growing

/-- From nothing, calls that visit no key both as a leaf and as a subtree make the visited types. -/
theorem synthesizeAll_shown {calls : List (String × List FieldMapping)} (apart : Visit.Apart (visits calls)) :
    ∃ final, synthesizeAll {} calls = .ok final ∧ DerivedFields.Sound final.types ∧
      DerivedFields.Shown (visits calls) final.types := by
  have tidy : ∀ name tree, (name, tree) ∈ trees calls → ∃ path, PathTree.Tidy path tree := by
    intro name tree member
    obtain ⟨⟨_, fields⟩, _, same⟩ := List.mem_map.mp member
    cases same
    exact ⟨[], PathTree.tidy_build fields⟩
  exact ⟨_, synthesizeAll_eq rfl calls, DerivedFields.sound_extendedAll tidy, DerivedFields.shown_extendedAll_nil apart⟩

/--
Calls on trees of mappings that visit no key of a type both as a leaf and as a subtree succeed and make
just the visited types. A type has one field for each of its visited keys: a text for a leaf, and for a
subtree the type of the joined name. In any other order the calls make the same types with the same
fields.
-/
theorem synthesizeAll_union (calls : List (String × List FieldMapping)) (apart : Visit.Apart (visits calls)) :
    ∃ final, synthesizeAll {} calls = .ok final ∧
      (final.derived.map (·.name)).Nodup ∧
      (∀ name, name ∈ final.derived.map (·.name) ↔ .type name ∈ visits calls) ∧
      (∀ type ∈ final.derived, (type.fields.map (·.name)).Nodup ∧ ∀ key declared, (key, declared) ∈ type.signature ↔
        (.leaf type.name key ∈ visits calls ∧ declared = "Edm.String") ∨
        (.subtree type.name key ∈ visits calls ∧ declared = "graph." ++ (type.name ++ Identifier.memberName key))) ∧
      ∀ others, others.Perm calls → ∃ reordered, synthesizeAll {} others = .ok reordered ∧
        (reordered.derived.map (·.name)).Perm (final.derived.map (·.name)) ∧
        ∀ type ∈ final.derived, ∀ other ∈ reordered.derived, other.name = type.name →
          other.signature.Perm type.signature := by
  obtain ⟨final, done, sound, shown⟩ := synthesizeAll_shown apart
  have distinct : (final.derived.map (·.name)).Nodup := by
    rw [derived, DerivedFields.names_toTypes]
    exact sound.distinct
  have names : ∀ name, name ∈ final.derived.map (·.name) ↔ .type name ∈ visits calls := by
    rw [derived, DerivedFields.names_toTypes]
    exact shown.names
  refine ⟨final, done, distinct, names, fun type listed => ⟨?_, shown.mem_signature sound listed⟩, ?_⟩
  · rw [← sound.fieldsOf_of_mem listed]
    exact sound.names type.name
  · intro others perm
    have same := mem_visits_of_perm perm
    obtain ⟨reordered, done', sound', shown'⟩ :=
      synthesizeAll_shown (apart.subset fun visit member => (same visit).mp member)
    refine ⟨reordered, done', ?_, fun type listed other listed' named => ?_⟩
    · rw [List.perm_ext_iff_of_nodup ?_ distinct]
      · intro name
        rw [names, derived, DerivedFields.names_toTypes, shown'.names, same]
      · rw [derived, DerivedFields.names_toTypes]
        exact sound'.distinct
    · rw [List.perm_ext_iff_of_nodup (sound'.nodup_signature listed') (sound.nodup_signature listed)]
      rintro ⟨key, declared⟩
      rw [shown'.mem_signature sound' listed', shown.mem_signature sound listed, named, same, same]

def twoKeys : List (String × List FieldMapping) := [
  ("gadget", [⟨"x.y", { headers := ["Y"] }⟩, ⟨"b.c", { headers := ["C"] }⟩]),
  ("other", []),
  ("gadget", [⟨"x.z", { headers := ["Z"] }⟩, ⟨"B.d", { headers := ["D"] }⟩, ⟨"w", { headers := ["W"] }⟩])]

theorem synthesizeAll_union_twoKeys : Visit.Apart (visits twoKeys) ∧
    ∃ final reordered, synthesizeAll {} twoKeys = .ok final ∧ synthesizeAll {} twoKeys.reverse = .ok reordered ∧
      (∀ name, name ∈ final.derived.map (·.name) ↔ .type name ∈ visits twoKeys) ∧
      (reordered.derived.map (·.name)).Perm (final.derived.map (·.name)) ∧
      ∀ type ∈ final.derived, ∀ other ∈ reordered.derived, other.name = type.name →
        other.signature.Perm type.signature := by
  have apart : Visit.Apart (visits twoKeys) := by decide +kernel
  obtain ⟨final, done, _, names, _, orders⟩ := synthesizeAll_union twoKeys apart
  obtain ⟨reordered, done', types, fields⟩ := orders twoKeys.reverse (List.reverse_perm twoKeys)
  exact ⟨apart, final, reordered, done, done', names, types, fields⟩

end Synthesis

end ProfileConnector
