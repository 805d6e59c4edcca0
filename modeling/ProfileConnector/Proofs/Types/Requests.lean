import ProfileConnector.Proofs.Types.Visited

/-!
What merging trees asks for. A tree that is followed through derived types asks for a field under each
key of each node that belongs to a type. Of several requests for one field the first one counts; so the
types that trees are merged into are just those whose fields are the first requests of the trees when
these are followed through them, and trees that make the same first requests make the same types.
-/

namespace ProfileConnector

namespace DerivedFields

mutual

/-- The fields that merging a tree asks for, in order, where nested fields lead as in the given types. -/
def requests (types : DerivedFields) (name : String) :
    List (String × PathTree) → KeyedList (String × String) FieldTarget
  | [] => []
  | (key, child) :: rest =>
    ((name, key), branchTarget name key child) :: (requestsBelow types name key child ++ requests types name rest)

def requestsBelow (types : DerivedFields) (name key : String) :
    PathTree → KeyedList (String × String) FieldTarget
  | .leaf _ => []
  | .node children =>
    match types.nested? name key with
    | none => []
    | some type => requests types type children

end

def requestsAll (types : DerivedFields) (trees : List (String × PathTree.Branches)) :
    KeyedList (String × String) FieldTarget :=
  trees.flatMap fun (name, tree) => types.requests name tree

variable {types other final : DerivedFields} {trees : List (String × PathTree.Branches)} {name key : String}

theorem tidy_single {path : List String} {branches : PathTree.Branches} (tidy : PathTree.Tidy path branches)
    (name : String) : ∀ origin tree, (origin, tree) ∈ [(name, branches)] → ∃ path, PathTree.Tidy path tree := by
  intro origin tree member
  cases List.mem_singleton.mp member
  exact ⟨path, tidy⟩

theorem requestsAll_single (types : DerivedFields) (name : String) (branches : PathTree.Branches) :
    types.requestsAll [(name, branches)] = types.requests name branches := by
  rw [requestsAll, List.flatMap_singleton]

/-! ## The first request counts -/

theorem get?_request (name key other wanted : String) (target : FieldTarget) :
    KeyedList.get? (other, wanted) [((name, key), target)] =
      if name = other ∧ key = wanted then some target else none := by
  simp [KeyedList.get?]

theorem target?_visit {branches : PathTree.Branches} {path : List String} (tidy : PathTree.Tidy path branches)
    (grown : Grows (visit types name branches) final) (owner wanted : String) :
    (visit types name branches).target? owner wanted =
      (types.target? owner wanted).or (KeyedList.get? (owner, wanted) (final.requests name branches)) := by
  -- The final types are fixed: by growth they lead on where the types at hand did.
  induction branches using PathTree.branches_induction generalizing path types name with
  | nil => simp [visit, requests, KeyedList.get?]
  | leaf key mapping rest others =>
    rw [visit] at grown ⊢
    rw [others tidy.tail grown, visitChild_leaf, target?_entered, requests, requestsBelow, List.nil_append,
      ← List.singleton_append, KeyedList.get?_append, get?_request, Option.or_assoc]
  | node key children rest below others =>
    rw [visit] at grown ⊢
    have branch := (grows_visit _ name tidy.tail).trans grown
    have entered := isSome_field?_withField types name key (branchTarget name key (.node children))
    rw [← field?_entered] at entered
    have leads := ((grows_visitChild types name tidy List.mem_cons_self).trans branch).nested? entered
    rw [others tidy.tail grown, requests, requestsBelow, ← List.singleton_append, KeyedList.get?_append,
      KeyedList.get?_append, get?_request, ← Option.or_assoc, ← Option.or_assoc, ← target?_entered, leads]
    rw [visitChild_node] at branch ⊢
    cases nested : (types.entered name key (.node children)).nested? name key with
    | none => simp [KeyedList.get?]
    | some type =>
      rw [nested] at branch
      rw [below (tidy.child List.mem_cons_self) branch]

theorem target?_extendedAll (tidy : ∀ name tree, (name, tree) ∈ trees → ∃ path, PathTree.Tidy path tree)
    (grown : Grows (types.extendedAll trees) final) (owner wanted : String) :
    (types.extendedAll trees).target? owner wanted =
      (types.target? owner wanted).or (KeyedList.get? (owner, wanted) (final.requestsAll trees)) := by
  induction trees generalizing types with
  | nil => simp [extendedAll, requestsAll, KeyedList.get?]
  | cons entry rest ih =>
    obtain ⟨name, tree⟩ := entry
    have others : ∀ name tree, (name, tree) ∈ rest → ∃ path, PathTree.Tidy path tree :=
      fun name tree inside => tidy name tree (List.mem_cons_of_mem _ inside)
    obtain ⟨path, own⟩ := tidy name tree List.mem_cons_self
    change ((types.extended name tree).extendedAll rest).target? owner wanted = _
    have merged : Grows (types.extended name tree) final := (grows_extendedAll others).trans grown
    have first : (types.extended name tree).target? owner wanted =
        (types.target? owner wanted).or (KeyedList.get? (owner, wanted) (final.requests name tree)) := by
      rw [← target?_opened types name]
      exact target?_visit own merged owner wanted
    rw [ih others grown, first, Option.or_assoc, ← KeyedList.get?_append]
    rfl

/-- From nothing, the fields are the first requests of the trees, followed through the types they make. -/
theorem target?_extendedAll_nil (tidy : ∀ name tree, (name, tree) ∈ trees → ∃ path, PathTree.Tidy path tree)
    (owner wanted : String) :
    (extendedAll [] trees).target? owner wanted =
      KeyedList.get? (owner, wanted) (requestsAll (extendedAll [] trees) trees) := by
  rw [target?_extendedAll tidy (fun _ _ _ found => found) owner wanted]
  simp [target?, field?, fieldsOf, KeyedList.get?]

/-! ## Types that meet requests -/

def Meets (types : DerivedFields) (asked : KeyedList (String × String) FieldTarget) : Prop :=
  ∀ owner wanted target, KeyedList.get? (owner, wanted) asked = some target → types.target? owner wanted = some target

theorem meets_extendedAll (tidy : ∀ name tree, (name, tree) ∈ trees → ∃ path, PathTree.Tidy path tree) :
    Meets (extendedAll [] trees) (requestsAll (extendedAll [] trees) trees) :=
  fun owner wanted _ first => (target?_extendedAll_nil tidy owner wanted).trans first

theorem Meets.nested?_eq {asked asked' before after after' : KeyedList (String × String) FieldTarget}
    (meets : Meets types asked) (meets' : Meets other asked') {target : FieldTarget}
    (split : asked = before ++ ((name, key), target) :: after)
    (split' : asked' = before ++ ((name, key), target) :: after') :
    types.nested? name key = other.nested? name key := by
  have first (after : KeyedList (String × String) FieldTarget) :
      KeyedList.get? (name, key) (before ++ ((name, key), target) :: after) =
        some ((KeyedList.get? (name, key) before).getD target) := by
    rw [KeyedList.get?_append, KeyedList.get?, if_pos rfl]
    cases KeyedList.get? (name, key) before <;> rfl
  have found := meets name key _ (split ▸ first after)
  have found' := meets' name key _ (split' ▸ first after')
  rw [target?, Option.map_eq_some_iff] at found found'
  obtain ⟨field, present, same⟩ := found
  obtain ⟨field', present', same'⟩ := found'
  rw [nested?, nested?, present, present', Option.bind_some, Option.bind_some, DerivedField.nestedType?,
    DerivedField.nestedType?, same, same']

theorem requests_eq {asked asked' : KeyedList (String × String) FieldTarget} (meets : Meets types asked)
    (meets' : Meets other asked') (branches : PathTree.Branches) {name : String}
    {before after after' : KeyedList (String × String) FieldTarget}
    (split : asked = before ++ (types.requests name branches ++ after))
    (split' : asked' = before ++ (other.requests name branches ++ after')) :
    types.requests name branches = other.requests name branches := by
  -- Both lists agree before the cut, so the first request behind it has one target on either side.
  induction branches using PathTree.branches_induction generalizing name before after after' with
  | nil => rw [requests, requests]
  | leaf key mapping rest others =>
    simp only [requests, requestsBelow, List.nil_append, List.cons_append] at split split' ⊢
    rw [List.append_cons] at split split'
    rw [others split split']
  | node key children rest below others =>
    simp only [requests, requestsBelow, List.cons_append, List.append_assoc] at split split' ⊢
    have leads := meets.nested?_eq meets' split split'
    rw [List.append_cons] at split split'
    rw [leads] at split ⊢
    cases nested : other.nested? name key with
    | none =>
      simp only [nested, List.nil_append] at split split' ⊢
      rw [others split split']
    | some type =>
      simp only [nested] at split split' ⊢
      have inner := below split split'
      rw [inner, ← List.append_assoc] at split
      rw [← List.append_assoc] at split'
      rw [inner, others split split']

theorem requestsAll_eq (meets : Meets types (types.requestsAll trees))
    (meets' : Meets other (other.requestsAll trees)) :
    types.requestsAll trees = other.requestsAll trees := by
  have grown (rest : List (String × PathTree.Branches)) (before : KeyedList (String × String) FieldTarget)
      (split : types.requestsAll trees = before ++ types.requestsAll rest)
      (split' : other.requestsAll trees = before ++ other.requestsAll rest) :
      types.requestsAll rest = other.requestsAll rest := by
    induction rest generalizing before with
    | nil => rfl
    | cons entry rest ih =>
      obtain ⟨name, tree⟩ := entry
      simp only [requestsAll, List.flatMap_cons] at split split' ih ⊢
      have first := requests_eq meets meets' tree split split'
      rw [first, ← List.append_assoc] at split
      rw [← List.append_assoc] at split'
      rw [first, ih _ split split']
  exact grown trees [] rfl rfl

/-! ## Requests and nodes -/

theorem exists_of_mem_requests {tree : PathTree.Branches} {request : (String × String) × FieldTarget}
    (member : request ∈ types.requests name tree) : ∃ last node key child, types.Descends name tree last node ∧
      (key, child) ∈ node ∧ request = ((last, key), branchTarget last key child) := by
  induction tree using PathTree.branches_induction generalizing name with
  | nil => simp [requests] at member
  | leaf key mapping rest others =>
    rw [requests, requestsBelow, List.nil_append] at member
    rcases List.mem_cons.mp member with rfl | later
    · exact ⟨name, _, key, .leaf mapping, .here, List.mem_cons_self, rfl⟩
    · obtain ⟨last, node, wanted, child, descends, listed, same⟩ := others later
      obtain ⟨node', descends', listed'⟩ := descends.of_rest (key, .leaf mapping) listed
      exact ⟨last, node', wanted, child, descends', listed', same⟩
  | node key children rest below others =>
    rw [requests, requestsBelow] at member
    rcases List.mem_cons.mp member with rfl | later
    · exact ⟨name, _, key, .node children, .here, List.mem_cons_self, rfl⟩
    · rcases List.mem_append.mp later with inner | outer
      · split at inner
        · cases inner
        · rename_i type nested
          obtain ⟨last, node, wanted, child, descends, listed, same⟩ := below inner
          exact ⟨last, node, wanted, child, .under List.mem_cons_self nested descends, listed, same⟩
      · obtain ⟨last, node, wanted, child, descends, listed, same⟩ := others outer
        obtain ⟨node', descends', listed'⟩ := descends.of_rest (key, .node children) listed
        exact ⟨last, node', wanted, child, descends', listed', same⟩

/-! ## The types below a name -/

/-- A type itself and the types that nested fields lead to from it. -/
inductive Below (types : DerivedFields) (name : String) : String → Prop
  | self : Below types name name
  | nested {owner key type : String} (above : Below types name owner) (leads : types.nested? owner key = some type) :
      Below types name type

theorem Below.trans {middle last : String} (first : types.Below name middle) (second : types.Below middle last) :
    types.Below name last := by
  induction second with
  | self => exact first
  | nested _ leads ih => exact ih.nested leads

theorem below_of_descends {tree node : PathTree.Branches} {last : String}
    (descends : types.Descends name tree last node) : types.Below name last := by
  induction descends with
  | here => exact .self
  | under _ leads _ ih => exact (Below.self.nested leads).trans ih

theorem mem_keys_entered_iff (present : name ∈ KeyedList.keys types) (child : PathTree) {last : String}
    (listed : last ∈ KeyedList.keys (types.entered name key child)) :
    last ∈ KeyedList.keys types ∨ (types.entered name key child).nested? name key = some last := by
  simp only [entered] at listed ⊢
  split at listed
  · rename_i leads
    rcases mem_keys_opened.mp listed with rfl | old
    · exact .inr (by rw [nested?_opened]; exact leads)
    · exact .inl ((mem_keys_withField_iff present _).mp old)
  · exact .inl ((mem_keys_withField_iff present _).mp listed)

theorem mem_keys_of_entered {children : PathTree.Branches} {type : String}
    (leads : (types.entered name key (.node children)).nested? name key = some type) :
    type ∈ KeyedList.keys (types.entered name key (.node children)) := by
  simp only [entered] at leads ⊢
  split at leads
  · rename_i other found
    rw [nested?_opened] at leads
    cases found.symm.trans leads
    exact mem_keys_opened.mpr (.inl rfl)
  · rename_i still
    exact absurd leads (still children type rfl)

theorem exists_nested_of_visit {branches : PathTree.Branches} {path : List String}
    (tidy : PathTree.Tidy path branches) (grown : Grows (visit types name branches) final)
    (present : name ∈ KeyedList.keys types) {last : String}
    (listed : last ∈ KeyedList.keys (visit types name branches)) :
    last ∈ KeyedList.keys types ∨ ∃ owner key, final.nested? owner key = some last := by
  induction branches using PathTree.branches_induction generalizing path types name with
  | nil =>
    rw [visit] at listed
    exact .inl listed
  | leaf key mapping rest others =>
    have entered := mem_keys_entered present name key (.leaf mapping)
    rw [visit, visitChild_leaf] at grown listed
    refine (others tidy.tail grown entered listed).imp_left fun old => ?_
    exact (mem_keys_withField_iff present .text).mp old
  | node key children rest below others =>
    have inner := tidy.child List.mem_cons_self
    have entered := mem_keys_entered present name key (.node children)
    have field := isSome_field?_withField types name key (branchTarget name key (.node children))
    rw [← field?_entered] at field
    rw [visit] at grown listed
    have branch := (grows_visit _ name tidy.tail).trans grown
    have leads := ((grows_visitChild types name tidy List.mem_cons_self).trans branch).nested? field
    have opened : last ∈ KeyedList.keys (types.entered name key (.node children)) →
        last ∈ KeyedList.keys types ∨ ∃ owner key, final.nested? owner key = some last := fun old =>
      (mem_keys_entered_iff present _ old).imp_right fun here => ⟨name, key, leads.trans here⟩
    rw [visitChild_node] at grown listed branch
    cases nested : (types.entered name key (.node children)).nested? name key with
    | none =>
      simp only [nested] at grown listed
      exact (others tidy.tail grown entered listed).elim opened .inr
    | some type =>
      simp only [nested] at grown listed branch
      have target := mem_keys_of_entered nested
      exact (others tidy.tail grown (mem_keys_visit inner type entered) listed).elim
        (fun old => (below inner branch target old).elim opened .inr) .inr

theorem exists_nested_of_extendedAll (tidy : ∀ name tree, (name, tree) ∈ trees → ∃ path, PathTree.Tidy path tree)
    (grown : Grows (types.extendedAll trees) final) {last : String}
    (listed : last ∈ KeyedList.keys (types.extendedAll trees)) :
    last ∈ KeyedList.keys types ∨ (∃ tree, (last, tree) ∈ trees) ∨
      ∃ owner key, final.nested? owner key = some last := by
  induction trees generalizing types with
  | nil => exact .inl listed
  | cons entry rest ih =>
    obtain ⟨name, tree⟩ := entry
    have others : ∀ name tree, (name, tree) ∈ rest → ∃ path, PathTree.Tidy path tree :=
      fun name tree inside => tidy name tree (List.mem_cons_of_mem _ inside)
    obtain ⟨path, own⟩ := tidy name tree List.mem_cons_self
    have merged : Grows (types.extended name tree) final := (grows_extendedAll others).trans grown
    rcases ih others grown listed with early | ⟨later, inside⟩ | leads
    · rcases exists_nested_of_visit own merged (mem_keys_opened.mpr (.inl rfl)) early with old | leads
      · rcases mem_keys_opened.mp old with rfl | before
        · exact .inr (.inl ⟨tree, List.mem_cons_self⟩)
        · exact .inl before
      · exact .inr (.inr leads)
    · exact .inr (.inl ⟨later, List.mem_cons_of_mem _ inside⟩)
    · exact .inr (.inr leads)

theorem mem_keys_extendedAll_iff (tidy : ∀ name tree, (name, tree) ∈ trees → ∃ path, PathTree.Tidy path tree)
    (some : trees ≠ []) (one : ∀ origin tree, (origin, tree) ∈ trees → origin = name) {last : String} :
    last ∈ KeyedList.keys (extendedAll [] trees) ↔ (extendedAll [] trees).Below name last := by
  constructor
  · intro listed
    have origins := exists_nested_of_extendedAll tidy (fun _ _ _ found => found) listed
    rcases origins with none | ⟨tree, inside⟩ | ⟨owner, key, leads⟩
    · simp [KeyedList.keys] at none
    · exact one last tree inside ▸ .self
    · -- The field that leads here was asked for in a node that belongs to its type.
      have first := nested?_eq_some.mp leads
      rw [target?_extendedAll_nil tidy] at first
      obtain ⟨⟨origin, tree⟩, inside, member⟩ := List.mem_flatMap.mp (KeyedList.mem_of_get? first)
      obtain ⟨owner', node, key', child, descends, _, same⟩ := exists_of_mem_requests member
      obtain ⟨rfl, rfl⟩ := Prod.mk.inj (Prod.mk.inj same).1
      exact one origin tree inside ▸ (below_of_descends descends).nested leads
  · intro below
    induction below with
    | self =>
      obtain ⟨⟨origin, tree⟩, inside⟩ := List.exists_mem_of_ne_nil trees some
      exact one origin tree inside ▸ mem_keys_extendedAll tidy inside
    | nested _ leads _ => exact ((sound_extendedAll tidy).nested _ _ _ leads).1

end DerivedFields

end ProfileConnector
