import ProfileConnector.Proofs.Outcome
import ProfileConnector.Proofs.PathTree
import ProfileConnector.Types.Derived

/-!
How derived types come about. A branch either finds its field or adds one, and then goes on in the
type below it; so types only grow, and the fields of a type are the keys of the nodes that are merged
into it, no more and no less.
-/

namespace ProfileConnector

open Outcome

namespace DerivedFields

variable {types final : DerivedFields} {name key : String}

/-! ## One branch -/

def nested? (types : DerivedFields) (name key : String) : Option String :=
  (types.field? name key).bind DerivedField.nestedType?

def withField (types : DerivedFields) (name key : String) (target : FieldTarget) : DerivedFields :=
  match types.field? name key with
  | some _ => types
  | none => types.adding name key target

def branchTarget (name key : String) : PathTree → FieldTarget
  | .leaf _ => .text
  | .node _ => .nested (nestedName name key)

/-- The types with the field of a branch, and with the type below it where the branch goes on. -/
def entered (types : DerivedFields) (name key : String) (child : PathTree) : DerivedFields :=
  let grown := types.withField name key (branchTarget name key child)
  match child, grown.nested? name key with
  | .node _, some type => grown.opened type
  | _, _ => grown

@[simp] theorem fieldsOf_opened (types : DerivedFields) (name other : String) :
    (types.opened name).fieldsOf other = types.fieldsOf other := by
  rw [fieldsOf, opened, KeyedList.get?_put]
  by_cases same : name = other
  · rw [if_pos same, same]
    rfl
  · rw [if_neg same]
    rfl

@[simp] theorem field?_opened (types : DerivedFields) (name other key : String) :
    (types.opened name).field? other key = types.field? other key := by
  rw [field?, fieldsOf_opened, field?]

@[simp] theorem nested?_opened (types : DerivedFields) (name other key : String) :
    (types.opened name).nested? other key = types.nested? other key := by
  rw [nested?, field?_opened, nested?]

theorem fieldsOf_adding (types : DerivedFields) (name key other : String) (target : FieldTarget) :
    (types.adding name key target).fieldsOf other =
      if name = other then
        types.fieldsOf name ++
          [⟨key, Identifier.freshVariable key ((types.fieldsOf name).map (·.variableName)), target⟩]
      else types.fieldsOf other := by
  rw [fieldsOf, adding, KeyedList.get?_put]
  by_cases same : name = other
  · simp [same]
  · simp [same, fieldsOf]

theorem field?_withField {target : FieldTarget} {other wanted : String} {field : DerivedField}
    (found : (types.withField name key target).field? other wanted = some field) :
    types.field? other wanted = some field ∨ (other = name ∧ wanted = key ∧ field.target = target) := by
  unfold withField at found
  split at found
  · exact Or.inl found
  · rw [field?, fieldsOf_adding] at found
    by_cases same : name = other
    · rw [if_pos same, List.find?_append, Option.or_eq_some_iff] at found
      rcases found with old | ⟨_, new⟩
      · exact Or.inl (same ▸ old)
      · obtain ⟨named, rfl⟩ : key = wanted ∧ _ := by simpa using new
        exact Or.inr ⟨same.symm, named.symm, rfl⟩
    · rw [if_neg same] at found
      exact Or.inl found

theorem field?_withField_of_some {target : FieldTarget} {other wanted : String} {field : DerivedField}
    (found : types.field? other wanted = some field) :
    (types.withField name key target).field? other wanted = some field := by
  unfold withField
  split
  · exact found
  · rw [field?, fieldsOf_adding]
    by_cases same : name = other
    · rw [if_pos same, List.find?_append, Option.or_eq_some_iff]
      exact Or.inl (same ▸ found)
    · rwa [if_neg same]

theorem isSome_field?_withField (types : DerivedFields) (name key : String) (target : FieldTarget) :
    ((types.withField name key target).field? name key).isSome := by
  unfold withField
  split
  · rename_i field found
    exact Option.isSome_of_mem found
  · rw [field?, fieldsOf_adding, if_pos rfl, List.find?_append]
    simp

theorem visitChild_leaf (types : DerivedFields) (name key : String) (mapping : FieldMapping) :
    visitChild types name key (.leaf mapping) = types.entered name key (.leaf mapping) := by
  cases found : types.field? name key <;> simp [visitChild, entered, withField, branchTarget, found]

theorem visitChild_node (types : DerivedFields) (name key : String) (children : PathTree.Branches) :
    visitChild types name key (.node children) =
      match (types.entered name key (.node children)).nested? name key with
      | some type => visit (types.entered name key (.node children)) type children
      | none => types.entered name key (.node children) := by
  cases found : types.field? name key with
  | some field =>
    have kept : types.withField name key (.nested (nestedName name key)) = types := by simp [withField, found]
    have target : types.nested? name key = field.nestedType? := by simp [nested?, found]
    cases shape : field.target <;>
      simp [visitChild, entered, branchTarget, found, kept, target, DerivedField.nestedType?, shape]
  | none =>
    have added : types.withField name key (.nested (nestedName name key)) =
        types.adding name key (.nested (nestedName name key)) := by simp [withField, found]
    have target : (types.adding name key (.nested (nestedName name key))).nested? name key =
        some (nestedName name key) := by
      obtain ⟨field, present⟩ := Option.isSome_iff_exists.mp
        (isSome_field?_withField types name key (.nested (nestedName name key)))
      rcases field?_withField present with old | ⟨_, _, nested⟩
      · rw [found] at old
        cases old
      · rw [nested?, ← added, present]
        simp [DerivedField.nestedType?, nested]
    simp [visitChild, entered, branchTarget, found, added, target]

theorem field?_entered (types : DerivedFields) (name key : String) (child : PathTree) (other wanted : String) :
    (types.entered name key child).field? other wanted =
      (types.withField name key (branchTarget name key child)).field? other wanted := by
  simp only [entered]
  split <;> simp

/-! ## Growth -/

def Grows (types later : DerivedFields) : Prop :=
  ∀ name key field, types.field? name key = some field → later.field? name key = some field

theorem Grows.trans {types later final : DerivedFields} (first : Grows types later) (second : Grows later final) :
    Grows types final :=
  fun name key field found => second name key field (first name key field found)

theorem grows_opened (types : DerivedFields) (name : String) : Grows types (types.opened name) :=
  fun other key field found => by rwa [field?_opened]

theorem grows_entered (types : DerivedFields) (name key : String) (child : PathTree) :
    Grows types (types.entered name key child) :=
  fun other wanted field found => by
    rw [field?_entered]
    exact field?_withField_of_some found

/-- What entering branches keeps, merging a tree keeps. -/
theorem visit_induction {motive : DerivedFields → Prop}
    (step : ∀ types name key child, key ≠ "" → Text.EndsFilled key.toList → motive types →
      motive (types.entered name key child))
    {branches : PathTree.Branches} {path : List String} (tidy : PathTree.Tidy path branches)
    {types : DerivedFields} (name : String) (holds : motive types) : motive (visit types name branches) := by
  induction branches using PathTree.branches_induction generalizing path types name with
  | nil => rwa [visit]
  | leaf key mapping rest others =>
    obtain ⟨nonempty, filled⟩ := tidy.endsFilled List.mem_cons_self
    rw [visit, visitChild_leaf]
    exact others tidy.tail name (step types name key _ nonempty filled holds)
  | node key children rest below others =>
    obtain ⟨nonempty, filled⟩ := tidy.endsFilled List.mem_cons_self
    have entered := step types name key (.node children) nonempty filled holds
    rw [visit, visitChild_node]
    refine others tidy.tail name ?_
    split
    · exact below (tidy.child List.mem_cons_self) _ entered
    · exact entered

theorem grows_visit (types : DerivedFields) (name : String) {branches : PathTree.Branches} {path : List String}
    (tidy : PathTree.Tidy path branches) : Grows types (visit types name branches) :=
  visit_induction (fun _ name key child _ _ grown => grown.trans (grows_entered _ name key child)) tidy name
    fun _ _ _ found => found

theorem grows_visitChild (types : DerivedFields) (name : String) {key : String} {child : PathTree}
    {path : List String} {branches : PathTree.Branches} (tidy : PathTree.Tidy path branches)
    (member : (key, child) ∈ branches) :
    Grows (types.entered name key child) (visitChild types name key child) := by
  cases child with
  | leaf mapping =>
    rw [visitChild_leaf]
    exact fun _ _ _ found => found
  | node children =>
    rw [visitChild_node]
    split
    · exact grows_visit _ _ (tidy.child member)
    · exact fun _ _ _ found => found

/-! ## The fields of a type -/

/--
The nodes that belong to types when a tree is merged into a type: the tree itself, and below a nested
field the subtree under its key, which belongs to the type of the field.
-/
inductive Descends (final : DerivedFields) : String → PathTree.Branches → String → PathTree.Branches → Prop
  | here {name : String} {tree : PathTree.Branches} : Descends final name tree name tree
  | under {name key type last : String} {tree children node : PathTree.Branches}
      (member : (key, .node children) ∈ tree) (nested : final.nested? name key = some type)
      (further : Descends final type children last node) : Descends final name tree last node

theorem Grows.nested? {types later : DerivedFields} (grown : Grows types later) {name key : String}
    (present : (types.field? name key).isSome) : later.nested? name key = types.nested? name key := by
  obtain ⟨field, found⟩ := Option.isSome_iff_exists.mp present
  rw [DerivedFields.nested?, DerivedFields.nested?, found, grown name key field found]

theorem Grows.isSome {types later : DerivedFields} (grown : Grows types later) {name key : String}
    (present : (types.field? name key).isSome) : (later.field? name key).isSome := by
  obtain ⟨field, found⟩ := Option.isSome_iff_exists.mp present
  exact Option.isSome_of_mem (grown name key field found)

theorem exists_visitChild {path : List String} {branches : PathTree.Branches} (tidy : PathTree.Tidy path branches)
    {key : String} {child : PathTree} (member : (key, child) ∈ branches) (types : DerivedFields) (name : String) :
    ∃ before, Grows (visitChild before name key child) (visit types name branches) := by
  induction branches generalizing types with
  | nil => cases member
  | cons entry rest ih =>
    rcases List.mem_cons.mp member with rfl | later
    · refine ⟨types, ?_⟩
      rw [visit]
      exact grows_visit _ name tidy.tail
    · obtain ⟨key', child'⟩ := entry
      rw [visit]
      exact ih tidy.tail later _

theorem isSome_field?_of_descends {path : List String} {branches : PathTree.Branches}
    (tidy : PathTree.Tidy path branches) {types : DerivedFields} {name last key : String}
    {node : PathTree.Branches} (grown : Grows (visit types name branches) final)
    (descends : Descends final name branches last node) (member : key ∈ KeyedList.keys node) :
    (final.field? last key).isSome := by
  induction descends generalizing path types with
  | @here name tree =>
    obtain ⟨⟨key, child⟩, listed, rfl⟩ := List.mem_map.mp member
    obtain ⟨before, inside⟩ := exists_visitChild tidy listed types name
    have entered := isSome_field?_withField before name key (branchTarget name key child)
    rw [← field?_entered] at entered
    exact (((grows_visitChild before _ tidy listed).trans inside).trans grown).isSome entered
  | @under name key type last tree children node listed nested further ih =>
    obtain ⟨before, inside⟩ := exists_visitChild tidy listed types name
    have entered := isSome_field?_withField before name key (branchTarget name key (.node children))
    rw [← field?_entered] at entered
    have later := ((grows_visitChild before name tidy listed).trans inside).trans grown
    have merged := inside.trans grown
    rw [visitChild_node, ← later.nested? entered, nested] at merged
    exact ih (tidy.child listed) merged member

theorem entered_within {known : String → String → Prop} {child : PathTree}
    (old : ∀ other wanted, (types.field? other wanted).isSome → known other wanted) (own : known name key) :
    ∀ other wanted, ((types.entered name key child).field? other wanted).isSome → known other wanted := by
  intro other wanted present
  obtain ⟨field, found⟩ := Option.isSome_iff_exists.mp present
  rw [field?_entered] at found
  rcases field?_withField found with before | ⟨rfl, rfl, _⟩
  · exact old other wanted (Option.isSome_of_mem before)
  · exact own

theorem Descends.of_rest {rest node : PathTree.Branches} {last : String} (descends : Descends final name rest last node)
    (entry : String × PathTree) {inside : String × PathTree} (member : inside ∈ node) :
    ∃ node', Descends final name (entry :: rest) last node' ∧ inside ∈ node' := by
  cases descends with
  | here => exact ⟨_, .here, List.mem_cons_of_mem entry member⟩
  | under listed nested further => exact ⟨node, .under (List.mem_cons_of_mem entry listed) nested further, member⟩

theorem Descends.of_tail {known : String → String → Prop} {entry : String × PathTree} {rest : PathTree.Branches}
    (merged : ∀ last node, Descends final name (entry :: rest) last node →
      ∀ key, key ∈ KeyedList.keys node → known last key) :
    ∀ last node, Descends final name rest last node → ∀ key, key ∈ KeyedList.keys node → known last key := by
  intro last node descends key listed
  obtain ⟨inside, member, rfl⟩ := List.mem_map.mp listed
  obtain ⟨node', whole, member'⟩ := descends.of_rest entry member
  exact merged last node' whole _ (List.mem_map.mpr ⟨inside, member', rfl⟩)

theorem visit_within {known : String → String → Prop} {path : List String} {branches : PathTree.Branches}
    (tidy : PathTree.Tidy path branches) {types : DerivedFields} {name : String}
    (grown : Grows (visit types name branches) final)
    (old : ∀ other key, (types.field? other key).isSome → known other key)
    (merged : ∀ last node, Descends final name branches last node →
      ∀ key, key ∈ KeyedList.keys node → known last key) :
    ∀ other key, ((visit types name branches).field? other key).isSome → known other key := by
  induction branches using PathTree.branches_induction generalizing path types name with
  | nil => simpa only [visit] using old
  | leaf key mapping rest others =>
    have own : known name key := merged name _ .here key List.mem_cons_self
    rw [visit, visitChild_leaf] at grown ⊢
    exact others tidy.tail grown (entered_within old own) (Descends.of_tail merged)
  | node key children rest below others =>
    have own : known name key := merged name _ .here key List.mem_cons_self
    have present := isSome_field?_withField types name key (branchTarget name key (.node children))
    rw [← field?_entered] at present
    rw [visit] at grown ⊢
    refine others tidy.tail grown ?_ (Descends.of_tail merged)
    -- The types after this branch are on the way to the final ones, so its field leads where it will in the end.
    have middle := (grows_visit _ name tidy.tail).trans grown
    have target := ((grows_visitChild types name tidy List.mem_cons_self).trans middle).nested? present
    rw [visitChild_node] at middle ⊢
    cases nested : (types.entered name key (.node children)).nested? name key with
    | none => exact entered_within old own
    | some type =>
      rw [nested] at target middle
      exact below (tidy.child List.mem_cons_self) middle (entered_within old own)
        fun last node further => merged last node (.under List.mem_cons_self target further)

/-! ## Well-formed types -/

theorem endsFilled_nestedName (name : String) {key : String} (nonempty : key ≠ "")
    (filled : Text.EndsFilled key.toList) : Text.EndsFilled (nestedName name key).toList := by
  have member : Identifier.memberName key = String.ofList (Text.capitalized key.toList) := by
    simp [Identifier.memberName, nonempty]
  obtain ⟨c, rest, shape⟩ : ∃ c rest, key.toList = c :: rest :=
    List.exists_cons_of_ne_nil fun empty => nonempty (by simpa using congrArg String.ofList empty)
  have some : Text.capitalized key.toList ≠ [] := by
    rw [shape, Text.capitalized]
    exact List.append_ne_nil_of_left_ne_nil (Text.capital_filled c).1 rest
  rw [nestedName, String.toList_append, member, String.toList_ofList]
  exact (Text.endsFilled_capitalized filled).append some

/-- Types and the fields of each type have distinct names, and the type of a nested field is there. -/
structure Sound (types : DerivedFields) : Prop where
  distinct : (KeyedList.keys types).Nodup
  names : ∀ name, ((types.fieldsOf name).map (·.name)).Nodup
  nested : ∀ name key type, types.nested? name key = some type →
    type ∈ KeyedList.keys types ∧ Text.EndsFilled type.toList

theorem mem_keys_opened {other : String} :
    other ∈ KeyedList.keys (types.opened name) ↔ other = name ∨ other ∈ KeyedList.keys types := by
  rw [opened, KeyedList.mem_keys_put]

theorem Sound.field?_of_mem (sound : Sound types) {field : DerivedField} (member : field ∈ types.fieldsOf name) :
    types.field? name field.name = some field := by
  have distinct := sound.names name
  rw [field?]
  generalize types.fieldsOf name = fields at member distinct
  induction fields with
  | nil => cases member
  | cons first rest ih =>
    obtain ⟨fresh, others⟩ := List.nodup_cons.mp distinct
    rcases List.mem_cons.mp member with rfl | later
    · simp
    · have different : first.name ≠ field.name := fun same => fresh (List.mem_map.mpr ⟨field, later, same.symm⟩)
      rw [List.find?_cons_of_neg (by simpa using different)]
      exact ih later others

theorem Sound.fieldsOf_of_mem (sound : Sound types) {type : DerivedType} (member : type ∈ types.toTypes) :
    types.fieldsOf type.name = type.fields := by
  obtain ⟨⟨name, fields⟩, listed, rfl⟩ := List.mem_map.mp member
  rw [fieldsOf, (KeyedList.get?_eq_some sound.distinct).mpr listed, Option.getD_some]

theorem names_toTypes (types : DerivedFields) : types.toTypes.map (·.name) = KeyedList.keys types := by
  simp [toTypes, KeyedList.keys, Function.comp_def]

theorem Sound.opened (sound : Sound types) (name : String) : Sound (types.opened name) where
  distinct := KeyedList.nodup_keys_put _ _ sound.distinct
  names other := by
    rw [fieldsOf_opened]
    exact sound.names other
  nested other key type found := by
    rw [nested?_opened] at found
    obtain ⟨present, filled⟩ := sound.nested other key type found
    exact ⟨mem_keys_opened.mpr (Or.inr present), filled⟩

theorem sound_nil : Sound [] where
  distinct := List.nodup_nil
  names _ := List.nodup_nil
  nested _ _ _ found := by simp [nested?, field?, fieldsOf, KeyedList.get?] at found

theorem mem_keys_withField {other : String} (member : other ∈ KeyedList.keys types) (name key : String)
    (target : FieldTarget) : other ∈ KeyedList.keys (types.withField name key target) := by
  unfold withField
  split
  · exact member
  · rw [adding, KeyedList.mem_keys_put]
    exact Or.inr member

theorem mem_keys_entered {other : String} (member : other ∈ KeyedList.keys types) (name key : String)
    (child : PathTree) : other ∈ KeyedList.keys (types.entered name key child) := by
  have kept := mem_keys_withField member name key (branchTarget name key child)
  simp only [entered]
  split
  · exact mem_keys_opened.mpr (Or.inr kept)
  · exact kept

theorem mem_keys_visit {other : String} {branches : PathTree.Branches} {path : List String}
    (tidy : PathTree.Tidy path branches) (name : String) (member : other ∈ KeyedList.keys types) :
    other ∈ KeyedList.keys (visit types name branches) :=
  visit_induction (motive := fun later => other ∈ KeyedList.keys later)
    (fun _ name key child _ _ listed => mem_keys_entered listed name key child) tidy name member

theorem mem_keys_extended {branches : PathTree.Branches} {path : List String} (tidy : PathTree.Tidy path branches)
    (types : DerivedFields) (name : String) : name ∈ KeyedList.keys (types.extended name branches) :=
  mem_keys_visit tidy name (mem_keys_opened.mpr (Or.inl rfl))

theorem Sound.names_withField (sound : Sound types) (name key : String) (target : FieldTarget) (other : String) :
    (((types.withField name key target).fieldsOf other).map (·.name)).Nodup := by
  unfold withField
  split
  · exact sound.names other
  · rename_i absent
    rw [fieldsOf_adding]
    split
    · rw [List.map_append, List.nodup_append]
      refine ⟨sound.names name, by simp, ?_⟩
      intro taken listed added single same
      obtain ⟨field, inside, rfl⟩ := List.mem_map.mp listed
      have absent := List.find?_eq_none.mp absent field inside
      simp_all
    · exact sound.names other

theorem Sound.distinct_withField (sound : Sound types) (name key : String) (target : FieldTarget) :
    (KeyedList.keys (types.withField name key target)).Nodup := by
  unfold withField
  split
  · exact sound.distinct
  · exact KeyedList.nodup_keys_put _ _ sound.distinct

theorem Sound.nested_withField (sound : Sound types) {name key other wanted type : String} {child : PathTree}
    (nonempty : key ≠ "") (filled : Text.EndsFilled key.toList)
    (found : (types.withField name key (branchTarget name key child)).nested? other wanted = some type) :
    Text.EndsFilled type.toList ∧
      (type ∈ KeyedList.keys types ∨ (other = name ∧ wanted = key ∧ ∃ children, child = .node children)) := by
  obtain ⟨field, present, target⟩ := Option.bind_eq_some_iff.mp found
  rcases field?_withField present with old | ⟨rfl, rfl, added⟩
  · have before : types.nested? other wanted = some type := by rw [nested?, old]; exact target
    obtain ⟨listed, ends⟩ := sound.nested other wanted type before
    exact ⟨ends, Or.inl listed⟩
  · cases child with
    | leaf mapping => simp [DerivedField.nestedType?, added, branchTarget] at target
    | node children =>
      obtain rfl : nestedName other wanted = type := by
        simpa [DerivedField.nestedType?, added, branchTarget] using target
      exact ⟨endsFilled_nestedName other nonempty filled, Or.inr ⟨rfl, rfl, children, rfl⟩⟩

theorem Sound.entered (sound : Sound types) (name key : String) (child : PathTree) (nonempty : key ≠ "")
    (filled : Text.EndsFilled key.toList) : Sound (types.entered name key child) := by
  have distinct := sound.distinct_withField name key (branchTarget name key child)
  have names := sound.names_withField name key (branchTarget name key child)
  simp only [DerivedFields.entered]
  split
  · rename_i children type present
    refine ⟨KeyedList.nodup_keys_put _ _ distinct, fun other => ?_, fun other wanted last found => ?_⟩
    · rw [fieldsOf_opened]
      exact names other
    · rw [nested?_opened] at found
      obtain ⟨ends, listed | ⟨rfl, rfl, _⟩⟩ := sound.nested_withField nonempty filled found
      · exact ⟨mem_keys_opened.mpr (Or.inr (mem_keys_withField listed name key _)), ends⟩
      · cases present.symm.trans found
        exact ⟨mem_keys_opened.mpr (Or.inl rfl), ends⟩
  · rename_i still
    refine ⟨distinct, names, fun other wanted last found => ?_⟩
    obtain ⟨ends, listed | ⟨rfl, rfl, children, rfl⟩⟩ := sound.nested_withField nonempty filled found
    · exact ⟨mem_keys_withField listed name key _, ends⟩
    · exact absurd found (still children last rfl)

end DerivedFields

end ProfileConnector
