import Mathlib.Data.List.Nodup
import ProfileConnector.PathTree
import ProfileConnector.Proofs.Text.Trimmed

/-!
Path trees that come from mappings. Their keys are distinct at every level, every leaf stands where
its own path says, and no subtree is empty; so no two leaves have one path.
-/

namespace ProfileConnector.PathTree

/-- The branches below a path as building leaves them. -/
inductive Tidy : List String → Branches → Prop
  | intro {path : List String} {branches : Branches} (distinct : (KeyedList.keys branches).Nodup)
      (placed : ∀ key mapping, (key, PathTree.leaf mapping) ∈ branches →
        segments mapping.path = path ++ [key])
      (inhabited : ∀ key children, (key, PathTree.node children) ∈ branches → children ≠ [])
      (below : ∀ key children, (key, PathTree.node children) ∈ branches → Tidy (path ++ [key]) children) :
      Tidy path branches

/-- Induction over branches: the first entry is a leaf, or a node whose branches the claim holds of as well. -/
theorem branches_induction {motive : Branches → Prop} (nil : motive [])
    (leaf : ∀ key mapping rest, motive rest → motive ((key, .leaf mapping) :: rest))
    (node : ∀ key children rest, motive children → motive rest → motive ((key, .node children) :: rest))
    (branches : Branches) : motive branches := by
  match branches with
  | [] => exact nil
  | (key, .leaf mapping) :: rest => exact leaf key mapping rest (branches_induction nil leaf node rest)
  | (key, .node children) :: rest =>
    exact node key children rest (branches_induction nil leaf node children) (branches_induction nil leaf node rest)

theorem Tidy.distinct {path : List String} {branches : Branches} (tidy : Tidy path branches) :
    (KeyedList.keys branches).Nodup := by
  cases tidy with
  | intro distinct => exact distinct

theorem Tidy.child {path : List String} {branches : Branches} (tidy : Tidy path branches) {key : String}
    {children : Branches} (member : (key, .node children) ∈ branches) : Tidy (path ++ [key]) children := by
  cases tidy with
  | intro _ _ _ below => exact below key children member

theorem Tidy.tail {path : List String} {entry : String × PathTree} {rest : Branches}
    (tidy : Tidy path (entry :: rest)) : Tidy path rest := by
  obtain ⟨distinct, placed, inhabited, below⟩ := tidy
  exact .intro (List.nodup_cons.mp distinct).2
    (fun key mapping member => placed key mapping (List.mem_cons_of_mem entry member))
    (fun key children member => inhabited key children (List.mem_cons_of_mem entry member))
    fun key children member => below key children (List.mem_cons_of_mem entry member)

theorem tidy_nil (path : List String) : Tidy path [] := by
  constructor <;> simp [KeyedList.keys]

/-! ## Building -/

theorem Tidy.put {path : List String} {branches : Branches} (tidy : Tidy path branches) {key : String}
    {child : PathTree} (leaf : ∀ mapping, child = .leaf mapping → segments mapping.path = path ++ [key])
    (node : ∀ children, child = .node children → children ≠ [] ∧ Tidy (path ++ [key]) children) :
    Tidy path (KeyedList.put key child branches) := by
  obtain ⟨distinct, placed, inhabited, below⟩ := tidy
  refine .intro (KeyedList.nodup_keys_put key _ distinct) ?_ ?_ ?_
  · intro other mapping member
    rcases KeyedList.mem_put member with new | old
    · cases new
      exact leaf mapping rfl
    · exact placed other mapping old
  · intro other children member
    rcases KeyedList.mem_put member with new | old
    · cases new
      exact (node children rfl).1
    · exact inhabited other children old
  · intro other children member
    rcases KeyedList.mem_put member with new | old
    · cases new
      exact (node children rfl).2
    · exact below other children old

theorem Tidy.put_leaf {path : List String} {branches : Branches} (tidy : Tidy path branches) {key : String}
    {mapping : FieldMapping} (own : segments mapping.path = path ++ [key]) :
    Tidy path (KeyedList.put key (.leaf mapping) branches) := by
  refine tidy.put (fun other same => ?_) nofun
  cases same
  exact own

theorem Tidy.put_node {path : List String} {branches children : Branches} (tidy : Tidy path branches)
    {key : String} (inner : Tidy (path ++ [key]) children) (nonempty : children ≠ []) :
    Tidy path (KeyedList.put key (.node children) branches) := by
  refine tidy.put nofun fun other same => ?_
  cases same
  exact ⟨nonempty, inner⟩

theorem Tidy.branchesAt {path : List String} {branches : Branches} (tidy : Tidy path branches)
    (key : String) : Tidy (path ++ [key]) (branchesAt key branches) := by
  unfold PathTree.branchesAt
  split
  · rename_i children found
    exact tidy.child (KeyedList.mem_of_get? found)
  · exact tidy_nil _

theorem insert_ne_nil {mapping : FieldMapping} {rest : List String} (some : rest ≠ []) (branches : Branches) :
    insert mapping rest branches ≠ [] := by
  match rest with
  | [] => exact absurd rfl some
  | [key] => exact KeyedList.put_ne_nil key _ branches
  | key :: next :: rest => exact KeyedList.put_ne_nil key _ branches

theorem Tidy.insert {mapping : FieldMapping} {rest path : List String} {branches : Branches}
    (tidy : Tidy path branches) (own : segments mapping.path = path ++ rest) :
    Tidy path (insert mapping rest branches) := by
  match rest with
  | [] => exact tidy
  | [key] => exact tidy.put_leaf own
  | key :: next :: rest =>
    refine tidy.put_node (Tidy.insert (tidy.branchesAt key) ?_) (insert_ne_nil (by simp) _)
    simpa using own

theorem tidy_build (fields : List FieldMapping) : Tidy [] (build fields) := by
  have grown (branches : Branches) (tidy : Tidy [] branches) :
      Tidy [] (fields.foldl (fun branches mapping =>
        PathTree.insert mapping (segments mapping.path) branches) branches) := by
    induction fields generalizing branches with
    | nil => exact tidy
    | cons mapping rest ih => exact ih _ (tidy.insert rfl)
  exact grown [] (tidy_nil [])

/-! ## Leaves -/

theorem leavesOf_eq_flatMap (branches : Branches) :
    leavesOf branches = branches.flatMap fun entry => leaves entry.2 := by
  induction branches with
  | nil => simp [leavesOf]
  | cons entry rest ih => rw [leavesOf, List.flatMap_cons, ih]

theorem mem_leavesOf {mapping : FieldMapping} {branches : Branches} :
    mapping ∈ leavesOf branches ↔ ∃ key child, (key, child) ∈ branches ∧ mapping ∈ leaves child := by
  simp [leavesOf_eq_flatMap]

theorem Tidy.prefix_segments {path : List String} {branches : Branches} (tidy : Tidy path branches) :
    ∀ key child mapping, (key, child) ∈ branches → mapping ∈ leaves child →
      path ++ [key] <+: segments mapping.path := by
  induction tidy with
  | intro distinct placed inhabited below ih =>
    intro key child mapping member listed
    cases child with
    | leaf own =>
      rw [leaves, List.mem_singleton] at listed
      exact listed ▸ (placed key own member ▸ List.prefix_rfl)
    | node children =>
      rw [leaves] at listed
      obtain ⟨next, inner, within, deeper⟩ := mem_leavesOf.mp listed
      exact (List.prefix_append _ [next]).trans (ih key children member next inner mapping within deeper)

/-- The path of a leaf below a node leads through the key of the node and on. -/
theorem Tidy.segments_below {path : List String} {branches children : Branches} (tidy : Tidy path branches)
    {key : String} (member : (key, .node children) ∈ branches) {mapping : FieldMapping}
    (inside : mapping ∈ leavesOf children) :
    mapping ∈ leavesOf branches ∧ ∃ next rest, segments mapping.path = path ++ key :: next :: rest := by
  obtain ⟨next, child, deeper, within⟩ := mem_leavesOf.mp inside
  obtain ⟨rest, whole⟩ := (tidy.child member).prefix_segments next child mapping deeper within
  exact ⟨mem_leavesOf.mpr ⟨key, _, member, by rwa [leaves]⟩, next, rest, by simpa using whole.symm⟩

theorem Tidy.exists_leaf {path : List String} {branches : Branches} (tidy : Tidy path branches)
    (some : branches ≠ []) : ∃ mapping, mapping ∈ leavesOf branches := by
  induction tidy with
  | @intro path branches distinct placed inhabited below ih =>
    obtain ⟨⟨key, child⟩, member⟩ := List.exists_mem_of_ne_nil branches some
    cases child with
    | leaf mapping => exact ⟨mapping, mem_leavesOf.mpr ⟨key, _, member, by simp [leaves]⟩⟩
    | node children =>
      obtain ⟨mapping, listed⟩ := ih key children member (inhabited key children member)
      exact ⟨mapping, mem_leavesOf.mpr ⟨key, _, member, by rwa [leaves]⟩⟩

theorem Tidy.exists_leaf_below {path : List String} {branches children : Branches} (tidy : Tidy path branches)
    {key : String} (member : (key, .node children) ∈ branches) : ∃ mapping, mapping ∈ leavesOf children := by
  obtain ⟨_, _, inhabited, below⟩ := tidy
  exact (below key children member).exists_leaf (inhabited key children member)

theorem Tidy.exists_key_mem {path : List String} {branches : Branches} (tidy : Tidy path branches)
    {key : String} {child : PathTree} (member : (key, child) ∈ branches) :
    ∃ mapping ∈ leaves child, key ∈ segments mapping.path := by
  have leaf : ∃ mapping, mapping ∈ leaves child := by
    cases child with
    | leaf mapping => exact ⟨mapping, by simp [leaves]⟩
    | node children => simpa only [leaves] using tidy.exists_leaf_below member
  obtain ⟨mapping, listed⟩ := leaf
  have through := tidy.prefix_segments key child mapping member listed
  exact ⟨mapping, listed, through.subset (by simp)⟩

theorem endsFilled_of_mem_segments {key path : String} (member : key ∈ segments path) :
    key ≠ "" ∧ Text.EndsFilled key.toList := by
  simp only [segments, List.mem_map, List.mem_filter] at member
  obtain ⟨cs, ⟨⟨raw, _, rfl⟩, nonempty⟩, rfl⟩ := member
  refine ⟨?_, by simpa using Text.endsFilled_trimChars raw⟩
  intro empty
  simp [String.ofList_eq_empty_iff.mp empty] at nonempty

theorem Tidy.endsFilled {path : List String} {branches : Branches} (tidy : Tidy path branches) {key : String}
    {child : PathTree} (member : (key, child) ∈ branches) : key ≠ "" ∧ Text.EndsFilled key.toList := by
  obtain ⟨mapping, _, segment⟩ := tidy.exists_key_mem member
  exact endsFilled_of_mem_segments segment

theorem Tidy.nodup_segments {path : List String} {branches : Branches} (tidy : Tidy path branches) :
    ((leavesOf branches).map fun mapping => segments mapping.path).Nodup := by
  induction tidy with
  | @intro path branches distinct placed inhabited below ih =>
    have tidy : Tidy path branches := .intro distinct placed inhabited below
    rw [leavesOf_eq_flatMap, List.map_flatMap, List.nodup_flatMap]
    constructor
    · rintro ⟨key, child⟩ member
      cases child with
      | leaf mapping => simp [leaves]
      | node children => simpa only [leaves] using ih key children member
    · refine (List.pairwise_map.mp distinct).imp_of_mem fun {first second} here there different => ?_
      intro path' one other
      obtain ⟨mapping, listed, rfl⟩ := List.mem_map.mp one
      obtain ⟨mapping', listed', same⟩ := List.mem_map.mp other
      have through := tidy.prefix_segments _ _ _ here listed
      have through' := same ▸ tidy.prefix_segments _ _ _ there listed'
      have equal := (List.prefix_of_prefix_length_le through through' (by simp)).eq_of_length (by simp)
      exact different (by simpa using equal)

theorem Tidy.nodup_paths {path : List String} {branches : Branches} (tidy : Tidy path branches) :
    ((leavesOf branches).map (·.path)).Nodup := by
  have distinct : (((leavesOf branches).map (·.path)).map segments).Nodup := by
    simpa [Function.comp_def] using tidy.nodup_segments
  exact distinct.of_map

/-! ## Surviving leaves -/

/-- Every leaf has one with the same segments in the other tree. -/
def Survives (branches others : Branches) : Prop :=
  ∀ mapping ∈ leavesOf branches, ∃ other ∈ leavesOf others, segments other.path = segments mapping.path

theorem Tidy.exists_child {path : List String} {branches : Branches} (tidy : Tidy path branches) {key : String}
    {mapping : FieldMapping} (listed : mapping ∈ leavesOf branches)
    (through : path ++ [key] <+: segments mapping.path) : ∃ child, (key, child) ∈ branches ∧ mapping ∈ leaves child := by
  obtain ⟨other, child, member, within⟩ := mem_leavesOf.mp listed
  have own := tidy.prefix_segments other child mapping member within
  have same := (List.prefix_of_prefix_length_le own through (by simp)).eq_of_length (by simp)
  obtain rfl : other = key := by simpa using same
  exact ⟨child, member, within⟩

theorem Survives.mem_keys {path : List String} {branches others : Branches} (survives : Survives branches others)
    (tidy : Tidy path branches) (tidy' : Tidy path others) {key : String} (member : key ∈ KeyedList.keys branches) :
    key ∈ KeyedList.keys others := by
  obtain ⟨⟨_, child⟩, listed, rfl⟩ := List.mem_map.mp member
  obtain ⟨mapping, within, _⟩ := tidy.exists_key_mem listed
  obtain ⟨other, there, same⟩ := survives mapping (mem_leavesOf.mpr ⟨_, child, listed, within⟩)
  obtain ⟨child', listed', _⟩ := tidy'.exists_child there (same ▸ tidy.prefix_segments _ child mapping listed within)
  exact List.mem_map.mpr ⟨_, listed', rfl⟩

theorem Survives.child {path : List String} {branches others : Branches} (survives : Survives branches others)
    (tidy : Tidy path branches) (tidy' : Tidy path others) {key : String} {children : Branches}
    (member : (key, .node children) ∈ branches) :
    ∃ children', (key, .node children') ∈ others ∧ Survives children children' := by
  have counterpart : ∀ mapping ∈ leavesOf children, ∃ other child, (key, child) ∈ others ∧ other ∈ leaves child ∧
      segments other.path = segments mapping.path := by
    intro mapping within
    have inside : mapping ∈ leaves (.node children) := by rwa [leaves]
    obtain ⟨other, there, same⟩ := survives mapping (mem_leavesOf.mpr ⟨key, _, member, inside⟩)
    obtain ⟨child, listed, below⟩ := tidy'.exists_child there (same ▸ tidy.prefix_segments _ _ mapping member inside)
    exact ⟨other, child, listed, below, same⟩
  obtain ⟨children', listed⟩ : ∃ children', (key, .node children') ∈ others := by
    obtain ⟨mapping, within⟩ := tidy.exists_leaf_below member
    obtain ⟨other, child, listed, here, same⟩ := counterpart mapping within
    cases child with
    | node children' => exact ⟨children', listed⟩
    | leaf own =>
      -- A leaf under the key has no segments behind it, but the leaves of the subtree have.
      obtain ⟨_, placed, _, _⟩ := tidy'
      obtain ⟨_, next, rest, long⟩ := tidy.segments_below member within
      rw [leaves, List.mem_singleton] at here
      rw [← same, here, placed key own listed] at long
      simp at long
  refine ⟨children', listed, fun mapping within => ?_⟩
  obtain ⟨other, child, listed', here, same⟩ := counterpart mapping within
  have unique : child = .node children' := by
    have found := (KeyedList.get?_eq_some tidy'.distinct).mpr listed
    rw [(KeyedList.get?_eq_some tidy'.distinct).mpr listed'] at found
    exact Option.some.inj found
  rw [unique, leaves] at here
  exact ⟨other, here, same⟩

/-! ## Leaves and mappings -/

theorem mem_leavesOf_put {mapping : FieldMapping} {key : String} {child : PathTree} {branches : Branches}
    (listed : mapping ∈ leavesOf (KeyedList.put key child branches)) :
    mapping ∈ leaves child ∨ mapping ∈ leavesOf branches := by
  obtain ⟨other, inner, member, within⟩ := mem_leavesOf.mp listed
  rcases KeyedList.mem_put member with new | old
  · cases new
    exact Or.inl within
  · exact Or.inr (mem_leavesOf.mpr ⟨other, inner, old, within⟩)

theorem mem_leavesOf_insert {mapping found : FieldMapping} {rest : List String} {branches : Branches}
    (listed : found ∈ leavesOf (insert mapping rest branches)) :
    found = mapping ∨ found ∈ leavesOf branches := by
  match rest with
  | [] => exact Or.inr listed
  | [key] =>
    rcases mem_leavesOf_put listed with new | old
    · exact Or.inl (List.mem_singleton.mp new)
    · exact Or.inr old
  | key :: next :: rest =>
    rcases mem_leavesOf_put listed with new | old
    · rcases mem_leavesOf_insert (by simpa only [leaves] using new) with equal | inside
      · exact Or.inl equal
      · unfold branchesAt at inside
        split at inside
        · rename_i children present
          refine Or.inr (mem_leavesOf.mpr ⟨key, .node children, KeyedList.mem_of_get? present, ?_⟩)
          rwa [leaves]
        · cases inside
    · exact Or.inr old

theorem mem_of_mem_leavesOf_build {fields : List FieldMapping} {found : FieldMapping}
    (listed : found ∈ leavesOf (build fields)) : found ∈ fields := by
  have grown (branches : Branches) :
      found ∈ leavesOf (fields.foldl (fun branches mapping =>
        insert mapping (segments mapping.path) branches) branches) →
      found ∈ fields ∨ found ∈ leavesOf branches := by
    clear listed
    induction fields generalizing branches with
    | nil => exact Or.inr
    | cons first rest ih =>
      intro listed
      rcases ih _ listed with later | inside
      · exact Or.inl (List.mem_cons_of_mem first later)
      · rcases mem_leavesOf_insert inside with rfl | old
        · exact Or.inl List.mem_cons_self
        · exact Or.inr old
  exact (grown [] listed).resolve_right List.not_mem_nil

/-! ## Trees side by side -/

theorem leavesOf_append (first second : Branches) : leavesOf (first ++ second) = leavesOf first ++ leavesOf second := by
  simp only [leavesOf_eq_flatMap, List.flatMap_append]

theorem insert_append (mapping : FieldMapping) {key : String} (rest : List String) {first : Branches}
    (absent : key ∉ KeyedList.keys first) (second : Branches) :
    insert mapping (key :: rest) (first ++ second) = first ++ insert mapping (key :: rest) second := by
  have below : branchesAt key (first ++ second) = branchesAt key second := by
    rw [branchesAt, KeyedList.get?_append, KeyedList.get?_eq_none absent, Option.none_or, ← branchesAt]
  cases rest with
  | nil => exact KeyedList.put_append absent _ _
  | cons next rest =>
    change KeyedList.put key (.node (insert mapping (next :: rest) (branchesAt key (first ++ second)))) (first ++ second) = _
    rw [below]
    exact KeyedList.put_append absent _ _

theorem exists_head_of_mem_keys {fields : List FieldMapping} {key : String}
    (listed : key ∈ KeyedList.keys (build fields)) :
    ∃ mapping ∈ fields, (segments mapping.path).head? = some key := by
  obtain ⟨⟨_, child⟩, member, rfl⟩ := List.mem_map.mp listed
  obtain ⟨mapping, leaf, _⟩ := (tidy_build fields).exists_key_mem member
  have through := (tidy_build fields).prefix_segments _ _ mapping member leaf
  obtain ⟨rest, whole⟩ := through
  exact ⟨mapping, mem_of_mem_leavesOf_build (mem_leavesOf.mpr ⟨_, child, member, leaf⟩), by rw [← whole]; rfl⟩

theorem build_append {fields others : List FieldMapping}
    (apart : ∀ mapping ∈ others, ∃ key rest, segments mapping.path = key :: rest ∧
      ∀ other ∈ fields, (segments other.path).head? ≠ some key) :
    build (fields ++ others) = build fields ++ build others := by
  have grown (branches : Branches) :
      others.foldl (fun branches mapping => insert mapping (segments mapping.path) branches) (build fields ++ branches) =
        build fields ++ others.foldl (fun branches mapping => insert mapping (segments mapping.path) branches) branches := by
    induction others generalizing branches with
    | nil => rfl
    | cons mapping rest ih =>
      obtain ⟨key, below, shape, foreign⟩ := apart mapping List.mem_cons_self
      have absent : key ∉ KeyedList.keys (build fields) := fun listed => by
        obtain ⟨other, member, head⟩ := exists_head_of_mem_keys listed
        exact foreign other member head
      rw [List.foldl_cons, List.foldl_cons, shape, insert_append mapping below absent]
      exact ih (fun other member => apart other (List.mem_cons_of_mem mapping member)) _
  have whole := grown []
  rw [List.append_nil] at whole
  rw [build, List.foldl_append]
  exact whole

theorem build_ne_nil {fields : List FieldMapping} {mapping : FieldMapping} (member : mapping ∈ fields)
    (some : segments mapping.path ≠ []) : build fields ≠ [] := by
  have grown (branches : Branches) (filled : branches ≠ [] ∨ mapping ∈ fields) :
      fields.foldl (fun branches mapping => insert mapping (segments mapping.path) branches) branches ≠ [] := by
    clear member
    induction fields generalizing branches with
    | nil => exact filled.resolve_right List.not_mem_nil
    | cons first rest ih =>
      refine ih _ ?_
      rcases filled with filled | listed
      · refine .inl ?_
        cases shape : segments first.path with
        | nil => simpa [shape, insert] using filled
        | cons key below => simpa only [shape] using insert_ne_nil (by simp) _
      · rcases List.mem_cons.mp listed with rfl | later
        · exact .inl (insert_ne_nil some _)
        · exact .inr later
  exact grown [] (.inr member)

end ProfileConnector.PathTree
