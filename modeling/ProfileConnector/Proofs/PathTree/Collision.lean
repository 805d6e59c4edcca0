import Mathlib.Data.Fintype.EquivFin
import Mathlib.Data.List.Perm.Basic
import ProfileConnector.Proofs.PathTree

/-!
Collisions of paths. Two paths collide if one of them leads through the end of the other. A mapping
is a leaf of the tree, at the end of its own path, just if no later path collides with its path, and
the leaves are all that the tree depends on: built from them, the same tree comes out, its keys in
the same order.
-/

namespace ProfileConnector.PathTree

/-- What the branches hold at the end of a path; the empty path ends at the branches themselves. -/
def at? : List String → Branches → Option PathTree
  | [], branches => some (.node branches)
  | key :: rest, branches =>
    match KeyedList.get? key branches with
    | none => none
    | some (.leaf mapping) => if rest.isEmpty then some (.leaf mapping) else none
    | some (.node children) => at? rest children

/-- One path is the other or leads through its end. -/
def Collide (first second : List String) : Prop := first <+: second ∨ second <+: first

instance (first second : List String) : Decidable (Collide first second) :=
  inferInstanceAs (Decidable (_ ∨ _))

/-- The path collides with no path of the mappings, those without segments left out. -/
def Clear (path : List String) (fields : List FieldMapping) : Prop :=
  ∀ mapping ∈ fields, segments mapping.path ≠ [] → ¬ Collide path (segments mapping.path)

instance (path : List String) (fields : List FieldMapping) : Decidable (Clear path fields) :=
  inferInstanceAs (Decidable (∀ mapping ∈ fields, segments mapping.path ≠ [] → ¬ Collide path (segments mapping.path)))

/-- The mapping has a path, and none of the later ones collides with it. -/
def Outlasts (mapping : FieldMapping) (later : List FieldMapping) : Prop :=
  segments mapping.path ≠ [] ∧ Clear (segments mapping.path) later

instance (mapping : FieldMapping) (later : List FieldMapping) : Decidable (Outlasts mapping later) :=
  inferInstanceAs (Decidable (_ ∧ _))

def survivors : List FieldMapping → List FieldMapping
  | [] => []
  | mapping :: later => if Outlasts mapping later then mapping :: survivors later else survivors later

theorem clear_cons {path : List String} {mapping : FieldMapping} {later : List FieldMapping} :
    Clear path (mapping :: later) ↔
      (segments mapping.path ≠ [] → ¬ Collide path (segments mapping.path)) ∧ Clear path later :=
  List.forall_mem_cons

theorem collide_cons {key other : String} {rest others : List String} :
    Collide (key :: rest) (other :: others) ↔ key = other ∧ Collide rest others := by
  simp only [Collide, List.cons_prefix_cons, eq_comm (a := other)]
  exact and_or_left.symm

/-! ## Survivors -/

theorem mem_survivors_cons {found mapping : FieldMapping} {later : List FieldMapping} :
    found ∈ survivors (mapping :: later) ↔ found = mapping ∧ Outlasts mapping later ∨ found ∈ survivors later := by
  by_cases outlasts : Outlasts mapping later <;> simp [survivors, outlasts]

theorem mem_of_mem_survivors {found : FieldMapping} {fields : List FieldMapping} (survives : found ∈ survivors fields) :
    found ∈ fields := by
  induction fields with
  | nil => cases survives
  | cons mapping later ih =>
    rcases mem_survivors_cons.mp survives with ⟨rfl, _⟩ | below
    · exact List.mem_cons_self
    · exact List.mem_cons_of_mem mapping (ih below)

theorem segments_ne_nil_of_mem_survivors {found : FieldMapping} {fields : List FieldMapping}
    (survives : found ∈ survivors fields) : segments found.path ≠ [] := by
  induction fields with
  | nil => cases survives
  | cons mapping later ih =>
    rcases mem_survivors_cons.mp survives with ⟨rfl, outlasts⟩ | below
    · exact outlasts.1
    · exact ih below

theorem nodup_survivors (fields : List FieldMapping) :
    ((survivors fields).map fun mapping => segments mapping.path).Nodup := by
  induction fields with
  | nil => exact List.nodup_nil
  | cons mapping later ih =>
    unfold survivors
    split
    · rename_i outlasts
      refine List.nodup_cons.mpr ⟨fun again => ?_, ih⟩
      obtain ⟨other, survives, same⟩ := List.mem_map.mp again
      exact outlasts.2 other (mem_of_mem_survivors survives) (segments_ne_nil_of_mem_survivors survives)
        (.inl (same ▸ List.prefix_rfl))
    · exact ih

theorem survivors_eq_nil {fields : List FieldMapping} :
    survivors fields = [] ↔ ∀ mapping ∈ fields, segments mapping.path = [] := by
  constructor
  · intro none
    induction fields with
    | nil => simp
    | cons mapping later ih =>
      unfold survivors at none
      split at none
      · cases none
      · rename_i displaced
        have pathless := ih none
        refine List.forall_mem_cons.mpr ⟨?_, pathless⟩
        by_contra some
        exact displaced ⟨some, fun other listed own => absurd (pathless other listed) own⟩
  · intro pathless
    refine List.eq_nil_iff_forall_not_mem.mpr fun found survives => ?_
    exact segments_ne_nil_of_mem_survivors survives (pathless found (mem_of_mem_survivors survives))

/-! ## Insertion -/

theorem at?_branchesAt (key next : String) (rest : List String) (branches : Branches) :
    at? (next :: rest) (branchesAt key branches) = at? (key :: next :: rest) branches := by
  conv_rhs => rw [at?]
  unfold branchesAt
  cases KeyedList.get? key branches with
  | none => rfl
  | some child => cases child <;> rfl

/-- After an insertion the leaves are the new one and those whose paths do not collide with its path. -/
theorem at?_insert {mapping found : FieldMapping} {target path : List String} {branches : Branches}
    (filled : target ≠ []) : at? path (insert mapping target branches) = some (.leaf found) ↔
      path = target ∧ found = mapping ∨ ¬ Collide path target ∧ at? path branches = some (.leaf found) := by
  match target, path with
  | [], _ => exact absurd rfl filled
  | _ :: _, [] => simp [at?, Collide, eq_comm]
  | [key], other :: rest =>
    rw [insert, at?, at?, KeyedList.get?_put, collide_cons]
    by_cases same : key = other
    · subst same
      cases rest <;> simp [Collide, eq_comm]
    · simp [same, Ne.symm same]
  | key :: next :: target, other :: rest =>
    rw [insert, at?, KeyedList.get?_put, collide_cons]
    · by_cases same : key = other
      · subst same
        cases rest with
        | nil => simp [at?, Collide]
        | cons first others =>
          simp only [if_true, at?_insert (List.cons_ne_nil next target), at?_branchesAt, List.cons.injEq, true_and]
      · simp [at?, same, Ne.symm same]
    · exact List.cons_ne_nil next target

def extended (branches : Branches) (fields : List FieldMapping) : Branches :=
  fields.foldl (fun branches mapping => insert mapping (segments mapping.path) branches) branches

theorem at?_extended {found : FieldMapping} {path : List String} {fields : List FieldMapping} {branches : Branches} :
    at? path (extended branches fields) = some (.leaf found) ↔
      segments found.path = path ∧ found ∈ survivors fields ∨
        Clear path fields ∧ at? path branches = some (.leaf found) := by
  induction fields generalizing branches with
  | nil => simp [extended, survivors, Clear]
  | cons mapping later ih =>
    rw [show extended branches (mapping :: later) = extended (insert mapping (segments mapping.path) branches) later from
      rfl, ih, mem_survivors_cons, clear_cons]
    by_cases filled : segments mapping.path = []
    · simp [filled, insert, Outlasts, Clear]
    · rw [at?_insert filled]
      constructor
      · rintro (⟨own, survives⟩ | ⟨clear, ⟨rfl, rfl⟩ | ⟨apart, held⟩⟩)
        · exact .inl ⟨own, .inr survives⟩
        · exact .inl ⟨rfl, .inl ⟨rfl, filled, clear⟩⟩
        · exact .inr ⟨⟨fun _ => apart, clear⟩, held⟩
      · rintro (⟨rfl, ⟨rfl, outlasts⟩ | survives⟩ | ⟨⟨apart, clear⟩, held⟩)
        · exact .inr ⟨outlasts.2, .inl ⟨rfl, rfl⟩⟩
        · exact .inl ⟨rfl, survives⟩
        · exact .inr ⟨clear, .inr ⟨apart filled, held⟩⟩

/-- The leaves of a tree stand at the ends of their own paths and are the survivors of its mappings. -/
theorem at?_build {found : FieldMapping} {path : List String} {fields : List FieldMapping} :
    at? path (build fields) = some (.leaf found) ↔ segments found.path = path ∧ found ∈ survivors fields := by
  have empty : at? path [] ≠ some (.leaf found) := by cases path <;> simp [at?, KeyedList.get?]
  rw [show build fields = extended [] fields from rfl, at?_extended, or_iff_left fun held => empty held.2]

/-! ## Leaves -/

theorem Tidy.at?_node {path rest : List String} {branches children : Branches} (tidy : Tidy path branches)
    (held : at? rest branches = some (.node children)) : rest ≠ [] → children ≠ [] := by
  induction rest generalizing path branches with
  | nil => exact fun below => absurd rfl below
  | cons key rest ih =>
    intro _
    rw [at?] at held
    split at held
    · cases held
    · split at held <;> cases held
    · rename_i inner found
      have member := KeyedList.mem_of_get? found
      cases rest with
      | nil =>
        cases held
        obtain ⟨_, _, inhabited, _⟩ := tidy
        exact inhabited key children member
      | cons next rest => exact ih (tidy.child member) held (List.cons_ne_nil next rest)

theorem Tidy.mem_leavesOf_iff {path : List String} {branches : Branches} (tidy : Tidy path branches)
    {mapping : FieldMapping} : mapping ∈ leavesOf branches ↔
      ∃ rest, segments mapping.path = path ++ rest ∧ at? rest branches = some (.leaf mapping) := by
  induction tidy with
  | @intro path branches distinct placed inhabited below ih =>
    rw [mem_leavesOf]
    constructor
    · rintro ⟨key, child, member, listed⟩
      have found := (KeyedList.get?_eq_some distinct).mpr member
      cases child with
      | leaf own =>
        rw [leaves, List.mem_singleton] at listed
        subst listed
        exact ⟨[key], placed key mapping member, by simp [at?, found]⟩
      | node children =>
        rw [leaves] at listed
        obtain ⟨rest, own, held⟩ := (ih key children member).mp listed
        exact ⟨key :: rest, by simpa using own, by simpa [at?, found] using held⟩
    · rintro ⟨rest, own, held⟩
      cases rest with
      | nil => cases held
      | cons key rest =>
        rw [at?] at held
        split at held
        · cases held
        · rename_i other found
          split at held
          · cases held
            exact ⟨key, _, KeyedList.mem_of_get? found, by simp [leaves]⟩
          · cases held
        · rename_i children found
          have member := KeyedList.mem_of_get? found
          refine ⟨key, _, member, ?_⟩
          rw [leaves]
          exact (ih key children member).mpr ⟨rest, by simpa using own, held⟩

theorem mem_leavesOf_build {mapping : FieldMapping} {fields : List FieldMapping} :
    mapping ∈ leavesOf (build fields) ↔ mapping ∈ survivors fields := by
  rw [(tidy_build fields).mem_leavesOf_iff]
  simp [at?_build]

theorem exists_unread (fields : List FieldMapping) : ∃ source : Source, ∀ mapping ∈ fields, mapping.source ≠ source := by
  have distinct : Function.Injective fun n : Nat => ({ headers := List.replicate n "" } : Source) := by
    intro m n same
    simpa using congrArg (fun source => source.headers.length) same
  have := Infinite.of_injective _ distinct
  obtain ⟨source, unread⟩ := Infinite.exists_notMem_finset (fields.map (·.source)).toFinset
  exact ⟨source, fun mapping listed same => unread (by simpa using ⟨mapping, listed, same⟩)⟩

theorem mem_survivors_or {found : FieldMapping} {before after : List FieldMapping}
    (survives : found ∈ survivors (before ++ after)) : found ∈ survivors before ∨ found ∈ survivors after := by
  induction before with
  | nil => exact .inr survives
  | cons mapping rest ih =>
    rcases mem_survivors_cons.mp survives with ⟨rfl, segment, clear⟩ | below
    · have outlasts : Outlasts found rest :=
        ⟨segment, fun other listed => clear other (List.mem_append_left after listed)⟩
      exact .inl (mem_survivors_cons.mpr (.inl ⟨rfl, outlasts⟩))
    · exact (ih below).imp_left fun inside => mem_survivors_cons.mpr (.inr inside)

theorem mem_survivors_append {found : FieldMapping} {before after : List FieldMapping}
    (survives : found ∈ survivors (before ++ after)) : found ∈ before ∨ found ∈ survivors after :=
  (mem_survivors_or survives).imp_left mem_of_mem_survivors

theorem exists_mem_survivors {found : FieldMapping} {lists : List (List FieldMapping)}
    (survives : found ∈ survivors lists.flatten) : ∃ fields ∈ lists, found ∈ survivors fields := by
  induction lists with
  | nil => cases survives
  | cons fields rest ih =>
    rw [List.flatten_cons] at survives
    rcases mem_survivors_or survives with here | later
    · exact ⟨fields, List.mem_cons_self, here⟩
    · obtain ⟨other, listed, inside⟩ := ih later
      exact ⟨other, List.mem_cons_of_mem fields listed, inside⟩

theorem mem_survivors_of_after {found : FieldMapping} {after : List FieldMapping} (survives : found ∈ survivors after)
    (before : List FieldMapping) : found ∈ survivors (before ++ after) := by
  induction before with
  | nil => exact survives
  | cons mapping rest ih => exact mem_survivors_cons.mpr (.inr ih)

/--
A mapping of a list is the leaf at the end of its own path, whatever it reads, just if it outlasts the
mappings after it. The leaves of the tree are the mappings that do so, each one once and no two with
one path; below the root there is no subtree without branches, and the tree is empty just if no
mapping has a segment.
-/
theorem build_survivors (fields : List FieldMapping) :
    (∀ before mapping after, (∀ source, at? (segments mapping.path) (build (before ++ { mapping with source } :: after)) =
      some (.leaf { mapping with source })) ↔ Outlasts mapping after) ∧
    (leavesOf (build fields)).Perm (survivors fields) ∧
    ((survivors fields).map fun mapping => segments mapping.path).Nodup ∧
    (∀ path children, at? path (build fields) = some (.node children) → path ≠ [] → children ≠ []) ∧
    (build fields = [] ↔ ∀ mapping ∈ fields, segments mapping.path = []) := by
  refine ⟨fun before mapping after => ⟨fun holds => ?_, fun outlasts source => ?_⟩, ?_, nodup_survivors fields,
    fun path children held => (tidy_build fields).at?_node held, ?_⟩
  · -- A source that no other mapping has tells this mapping from all others of its path.
    obtain ⟨source, unread⟩ := exists_unread (before ++ after)
    have foreign : ∀ other ∈ before ++ after, { mapping with source } ≠ other :=
      fun other listed same => unread other listed (congrArg FieldMapping.source same).symm
    have survives := mem_survivors_append (at?_build.mp (holds source)).2
    rcases survives.resolve_left fun early => foreign _ (List.mem_append_left after early) rfl with survives
    rcases mem_survivors_cons.mp survives with ⟨_, outlasts⟩ | late
    · exact outlasts
    · exact absurd rfl (foreign _ (List.mem_append_right before (mem_of_mem_survivors late)))
  · have survives : { mapping with source } ∈ survivors ({ mapping with source } :: after) :=
      mem_survivors_cons.mpr (.inl ⟨rfl, outlasts⟩)
    exact at?_build.mpr ⟨rfl, mem_survivors_of_after survives before⟩
  · exact (List.perm_ext_iff_of_nodup (tidy_build fields).nodup_segments.of_map (nodup_survivors fields).of_map).mpr
      fun _ => mem_leavesOf_build
  · rw [← survivors_eq_nil]
    constructor
    · intro empty
      refine List.eq_nil_iff_forall_not_mem.mpr fun mapping survives => ?_
      cases empty ▸ mem_leavesOf_build.mpr survives
    · intro none
      by_contra some
      obtain ⟨mapping, listed⟩ := (tidy_build fields).exists_leaf some
      cases none ▸ mem_leavesOf_build.mp listed

example : survivors [⟨"x.y", {}⟩, ⟨"x", {}⟩, ⟨"z", {}⟩, ⟨"z.y", {}⟩] = [⟨"x", {}⟩, ⟨"z.y", {}⟩] := by decide +kernel

/-! ## Rebuilding -/

def extendedAt (depth : Nat) (branches : Branches) (fields : List FieldMapping) : Branches :=
  fields.foldl (fun branches mapping => insert mapping ((segments mapping.path).drop depth) branches) branches

theorem branchesAt_put (key : String) (children branches : Branches) :
    branchesAt key (KeyedList.put key (.node children) branches) = children := by
  rw [branchesAt, KeyedList.get?_put, if_pos rfl]

theorem extendedAt_below {path : List String} {key : String} {fields : List FieldMapping} {branches : Branches}
    (filled : fields ≠ [])
    (through : ∀ mapping ∈ fields, ∃ rest, rest ≠ [] ∧ segments mapping.path = path ++ key :: rest) :
    extendedAt path.length branches fields =
      KeyedList.put key (.node (extendedAt (path ++ [key]).length (branchesAt key branches) fields)) branches := by
  induction fields generalizing branches with
  | nil => exact absurd rfl filled
  | cons mapping others ih =>
    obtain ⟨⟨rest, nonempty, own⟩, through⟩ := List.forall_mem_cons.mp through
    have here : (segments mapping.path).drop path.length = key :: rest := by rw [own, List.drop_left]
    have below : (segments mapping.path).drop (path ++ [key]).length = rest := by simp [own]
    unfold extendedAt at ih ⊢
    rw [List.foldl_cons, List.foldl_cons, here, below, insert.eq_3 mapping branches key rest nonempty]
    by_cases last : others = []
    · rw [last, List.foldl_nil, List.foldl_nil]
    · rw [ih last through, branchesAt_put, KeyedList.put_put]

theorem apart_append {key : String} {child : PathTree} {before rest : Branches}
    (distinct : (KeyedList.keys ((key, child) :: rest)).Nodup)
    (apart : ∀ other ∈ KeyedList.keys ((key, child) :: rest), other ∉ KeyedList.keys before) :
    ∀ other ∈ KeyedList.keys rest, other ∉ KeyedList.keys (before ++ [(key, child)]) := by
  intro other listed
  rw [KeyedList.keys, List.map_append, List.mem_append, not_or]
  refine ⟨apart other (List.mem_cons_of_mem key listed), fun same => ?_⟩
  rw [List.map_singleton, List.mem_singleton] at same
  exact (List.nodup_cons.mp distinct).1 (same ▸ listed)

theorem Tidy.extendedAt_leavesOf {path : List String} {branches : Branches} (tidy : Tidy path branches)
    {before : Branches} (apart : ∀ key ∈ KeyedList.keys branches, key ∉ KeyedList.keys before) :
    extendedAt path.length before (leavesOf branches) = before ++ branches := by
  -- Leaves arrive in the order of the tree, so each branch is put behind those that are complete.
  induction branches using branches_induction generalizing path before with
  | nil => simp [leavesOf, extendedAt]
  | leaf key mapping rest ih =>
    obtain ⟨distinct, placed, _, _⟩ := id tidy
    have own : PathTree.insert mapping ((segments mapping.path).drop path.length) before =
        before ++ [(key, .leaf mapping)] := by
      rw [placed key mapping List.mem_cons_self, List.drop_left, PathTree.insert]
      exact KeyedList.put_eq_append (apart key List.mem_cons_self)
    rw [leavesOf, leaves, List.singleton_append, extendedAt, List.foldl_cons, own]
    exact (ih tidy.tail (apart_append distinct apart)).trans (List.append_cons before _ rest).symm
  | node key children rest inner ih =>
    have distinct := tidy.distinct
    have child := tidy.child List.mem_cons_self
    have fresh := apart key List.mem_cons_self
    have through : ∀ mapping ∈ leavesOf children, ∃ rest, rest ≠ [] ∧ segments mapping.path = path ++ key :: rest := by
      intro mapping listed
      obtain ⟨_, next, rest, own⟩ := tidy.segments_below List.mem_cons_self listed
      exact ⟨next :: rest, List.cons_ne_nil _ _, own⟩
    have filled : leavesOf children ≠ [] := by
      obtain ⟨mapping, listed⟩ := tidy.exists_leaf_below List.mem_cons_self
      exact List.ne_nil_of_mem listed
    have none : PathTree.branchesAt key before = [] := by rw [PathTree.branchesAt, KeyedList.get?_eq_none fresh]
    have own : extendedAt path.length before (leavesOf children) = before ++ [(key, .node children)] := by
      rw [extendedAt_below filled through, none, inner child (by simp [KeyedList.keys]), List.nil_append]
      exact KeyedList.put_eq_append fresh
    rw [leavesOf, leaves, extendedAt, List.foldl_append]
    exact (congrArg (extendedAt path.length · (leavesOf rest)) own).trans
      ((ih tidy.tail (apart_append distinct apart)).trans (List.append_cons before _ rest).symm)

/-- Built from its own leaves a tree comes out again, with its keys in their order at every level. -/
theorem build_leavesOf_build (fields : List FieldMapping) : build (leavesOf (build fields)) = build fields := by
  have rebuilt : extendedAt 0 [] (leavesOf (build fields)) = [] ++ build fields :=
    (tidy_build fields).extendedAt_leavesOf fun _ _ => List.not_mem_nil
  exact rebuilt

end ProfileConnector.PathTree
