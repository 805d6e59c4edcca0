import ProfileConnector.Proofs.Plan.Entity
import ProfileConnector.Proofs.Plan.Slots
import ProfileConnector.Proofs.Target.Block

/-!
Mappings that are dropped. A mapping whose key is no property of the type at hand gets no value in the
record, but its leaf still counts where it is decided how a list of entities is made.
-/

namespace ProfileConnector

/-! ## Array roots of some of the leaves -/

namespace ArrayRoot

theorem collect_isSome {leaves : List FieldMapping} {root : String}
    (through : ∀ mapping ∈ leaves, ∃ relative, split? mapping.source = some (root, relative)) {found : Option ArrayRoot}
    (known : ∀ shared, found = some shared → shared.root = root) (filled : found.isSome ∨ leaves ≠ []) :
    (collect found leaves).isSome := by
  induction leaves generalizing found with
  | nil => simpa [collect] using filled
  | cons mapping rest ih =>
    obtain ⟨relative, cut⟩ := through mapping List.mem_cons_self
    have later := @ih fun other member => through other (List.mem_cons_of_mem mapping member)
    rw [collect, cut]
    cases found with
    | none => exact later (fun shared given => by cases given; rfl) (.inl rfl)
    | some shared =>
      simp only [known shared rfl, if_true]
      exact later (fun other given => by cases given; rfl) (.inl rfl)

theorem common?_isSome_iff {leaves : List FieldMapping} (some : leaves ≠ []) : (common? leaves).isSome ↔
    ∃ root, ∀ mapping ∈ leaves, ∃ relative, split? mapping.source = Option.some (root, relative) := by
  constructor
  · intro common
    obtain ⟨shared, found⟩ := Option.isSome_iff_exists.mp common
    exact ⟨shared.root, (collect_ok found).2⟩
  · rintro ⟨root, through⟩
    exact collect_isSome through (fun _ given => nomatch given) (.inr some)

end ArrayRoot

/-! ## Readers that make the same of some leaves -/

namespace LeafReader

def Alike (leaf : LeafLimits) (reader other : LeafReader) (leaves : List FieldMapping) : Prop :=
  ∀ mapping ∈ leaves, reader.single leaf mapping = other.single leaf mapping ∧
    reader.many leaf mapping = other.many leaf mapping

variable {leaf : LeafLimits} {reader other : LeafReader} {leaves : List FieldMapping}

theorem Alike.subset {some : List FieldMapping} (alike : Alike leaf reader other leaves) (within : some ⊆ leaves) :
    Alike leaf reader other some := fun mapping listed => alike mapping (within listed)

theorem alike_fromEntry (leaf : LeafLimits) {others : List FieldMapping} {own shared : ArrayRoot}
    (distinct : ((leaves ++ others).map (·.path)).Nodup) (common : ArrayRoot.common? leaves = some own)
    (all : ArrayRoot.common? (leaves ++ others) = some shared) :
    shared.root = own.root ∧ Alike leaf (.fromEntry shared.relatives) (.fromEntry own.relatives) leaves := by
  have front : (leaves.map (·.path)).Nodup := by
    rw [List.map_append] at distinct
    exact (List.nodup_append.mp distinct).1
  have cuts := (ArrayRoot.collect_ok common).2
  have cuts' := (ArrayRoot.collect_ok all).2
  constructor
  · cases leaves with
    | nil => cases common
    | cons mapping rest =>
      obtain ⟨relative, cut⟩ := cuts mapping List.mem_cons_self
      obtain ⟨relative', cut'⟩ := cuts' mapping List.mem_cons_self
      rw [cut, Option.some.injEq, Prod.mk.injEq] at cut'
      exact cut'.1.symm
  · intro mapping listed
    obtain ⟨relative, cut⟩ := cuts mapping listed
    have found := (relative?_of_collect front common).2 mapping listed _ _ cut
    have found' := (relative?_of_collect distinct all).2 mapping (List.mem_append_left _ listed) _ _ cut
    simp only [single, many, found, found', and_self]

end LeafReader

namespace EntityContext

variable {context : EntityContext} {info : TypeInfo} {reader other : LeafReader}

theorem untypedEntries_alike {tree : PathTree.Branches}
    (alike : LeafReader.Alike context.leaf reader other (PathTree.leavesOf tree)) :
    context.untypedEntries reader tree = context.untypedEntries other tree := by
  induction tree using PathTree.branches_induction with
  | nil => rw [untypedEntries, untypedEntries]
  | leaf key mapping rest others =>
    rw [PathTree.leavesOf, PathTree.leaves] at alike
    rw [untypedEntries, untypedEntries, untyped, untyped, (alike mapping (by simp)).1,
      others (alike.subset (List.subset_append_right _ _))]
  | node key children rest below others =>
    rw [PathTree.leavesOf, PathTree.leaves] at alike
    rw [untypedEntries, untypedEntries, untyped, untyped, below (alike.subset (List.subset_append_left _ _)),
      others (alike.subset (List.subset_append_right _ _))]

theorem leafMember_alike {mapping : FieldMapping} (alike : LeafReader.Alike context.leaf reader other [mapping])
    (property : PropertyInfo) :
    context.leafMember reader property mapping = context.leafMember other property mapping := by
  obtain ⟨single, many⟩ := alike mapping (List.mem_singleton_self _)
  simp only [leafMember, single, many]

theorem typedEntries_alike {tree : PathTree.Branches} (info : TypeInfo)
    (alike : LeafReader.Alike context.leaf reader other (PathTree.leavesOf tree)) (next : Nat) :
    context.typedEntries info reader next tree = context.typedEntries info other next tree := by
  induction tree using PathTree.branches_induction generalizing info next with
  | nil => rw [typedEntries, typedEntries]
  | leaf key mapping rest others =>
    rw [PathTree.leavesOf, PathTree.leaves] at alike
    have later (info : TypeInfo) := others info (alike.subset (List.subset_append_right _ _))
    have own := leafMember_alike (alike.subset (List.subset_append_left _ _))
    rw [typedEntries, typedEntries]
    simp only [typedMember, own, later]
  | node key children rest below others =>
    rw [PathTree.leavesOf, PathTree.leaves] at alike
    have later (info : TypeInfo) := others info (alike.subset (List.subset_append_right _ _))
    have inner := alike.subset (List.subset_append_left _ _)
    have deeper (info : TypeInfo) := below info inner
    rw [typedEntries, typedEntries]
    simp only [typedMember, deeper, untypedEntries_alike inner, later]

/-! ## Lists of entities -/

theorem entityCollection_of_common {format : InputFormat} (structured : format.isRow = false)
    {fields : List FieldMapping} {shared : ArrayRoot}
    (common : ArrayRoot.common? (PathTree.leavesOf (PathTree.build fields)) = some shared)
    (info : Option TypeInfo) : context.entityCollection format info fields =
      .eachEntry shared.root
        (.serialized (context.object info (.fromEntry shared.relatives) 0 (PathTree.build fields))) := by
  rw [entityCollection]
  simp only [structured, Bool.false_eq_true, if_false, common]

theorem entityCollection_of_none {format : InputFormat} {fields : List FieldMapping}
    (apart : format.isRow = true ∨ ArrayRoot.common? (PathTree.leavesOf (PathTree.build fields)) = none)
    (info : Option TypeInfo) :
    context.entityCollection format info fields = context.zipped info (PathTree.build fields) := by
  rw [entityCollection]
  rcases apart with row | none
  · simp only [row, if_true]
  · simp only [none, ite_self]

theorem zipped_of_several (context : EntityContext) (info : Option TypeInfo) {tree : PathTree.Branches}
    {first second : FieldMapping} {others : List FieldMapping}
    (leaves : PathTree.leavesOf tree = first :: second :: others) : ∃ body, context.zipped info tree =
      .broadcast (SlotReads.allocate context.leaf 0 (first :: second :: others)).reads textElement false body := by
  rw [zipped]
  simp only [leaves]
  exact ⟨_, rfl⟩

theorem reads_append (leaf : LeafLimits) (leaves : List FieldMapping) (mapping : FieldMapping)
    (others : List FieldMapping) :
    ∃ next rest, (SlotReads.allocate leaf 0 (leaves ++ mapping :: others)).reads =
      (SlotReads.allocate leaf 0 leaves).reads ++ next :: rest := by
  simp only [SlotReads.allocate, List.mapIdx_append, List.mapIdx_cons]
  exact ⟨_, _, rfl⟩

theorem row_or_none {format : InputFormat} {common : Option ArrayRoot}
    (apart : ¬ (format.isRow = false ∧ common.isSome)) :
    format.isRow = true ∨ common = none := by
  cases common with
  | none => exact .inr rfl
  | some shared => exact .inl (by simpa using apart)

/-- Another leaf changes what is written of correlated leaves, and nothing else is written like correlated leaves. -/
theorem apart_of_zipped {format : InputFormat} {info : Option TypeInfo} {fields : List FieldMapping}
    {tree : PathTree.Branches} {mapping : FieldMapping} {others : List FieldMapping}
    (filled : PathTree.leavesOf (PathTree.build fields) ≠ [])
    (leaves : PathTree.leavesOf tree = PathTree.leavesOf (PathTree.build fields) ++ mapping :: others)
    {target : Target} {e e' : String} (own : (context.entityCollection format info fields).write target = .ok e)
    (longer : (context.zipped info tree).write target = .ok e') : Apart e e' := by
  obtain ⟨first, rest, shape⟩ := List.exists_cons_of_ne_nil filled
  rw [shape] at leaves
  obtain ⟨body, zips⟩ : ∃ body, context.zipped info tree = .broadcast
      (SlotReads.allocate context.leaf 0 (first :: rest ++ mapping :: others)).reads textElement false body := by
    cases rest with
    | nil => exact zipped_of_several context info leaves
    | cons second rest => exact zipped_of_several context info leaves
  rw [zips] at longer
  -- Alone, the leaves run through one array, or there is one that is mapped, or several that are correlated.
  by_cases shared : format.isRow = false ∧ (ArrayRoot.common? (PathTree.leavesOf (PathTree.build fields))).isSome
  · obtain ⟨root, common⟩ := Option.isSome_iff_exists.mp shared.2
    obtain ⟨⟨slot, read⟩, more, reads⟩ := reads_append context.leaf [] first (rest ++ mapping :: others)
    have bound : (SlotReads.allocate context.leaf 0 (first :: rest ++ mapping :: others)).reads =
        (slot, read) :: more := reads
    rw [entityCollection_of_common shared.1 common] at own
    rw [bound] at longer
    exact Plan.apart_of_eachEntry own longer
  · rw [entityCollection_of_none (row_or_none shared)] at own
    cases rest with
    | nil =>
      rw [zipped, shape] at own
      exact Plan.apart_of_mapped own longer
    | cons second rest =>
      obtain ⟨body', correlates⟩ := zipped_of_several context info shape
      obtain ⟨next, more, reads⟩ := reads_append context.leaf (first :: second :: rest) mapping others
      rw [correlates] at own
      rw [reads] at longer
      exact Plan.apart_of_broadcast (by simp [SlotReads.allocate]) own longer

/-- The mappings have keys of their own, none of which is a property of the type. -/
def Foreign (info : TypeInfo) (fields dropped : List FieldMapping) : Prop :=
  ∀ mapping ∈ dropped, ∃ key rest, PathTree.segments mapping.path = key :: rest ∧ info.property? key = none ∧
    ∀ other ∈ fields, (PathTree.segments other.path).head? ≠ some key

theorem Foreign.build_append {fields dropped : List FieldMapping} (foreign : Foreign info fields dropped) :
    PathTree.build (fields ++ dropped) = PathTree.build fields ++ PathTree.build dropped :=
  PathTree.build_append fun mapping member => by
    obtain ⟨key, rest, shape, _, apart⟩ := foreign mapping member
    exact ⟨key, rest, shape, apart⟩

theorem Foreign.object_append {fields dropped : List FieldMapping} (foreign : Foreign info fields dropped)
    (reader : LeafReader) : context.object (some info) reader 0 (PathTree.build fields ++ PathTree.build dropped) =
      context.object (some info) reader 0 (PathTree.build fields) := by
  have unknown : ∀ key ∈ KeyedList.keys (PathTree.build dropped), info.property? key = none := by
    intro key listed
    obtain ⟨mapping, member, head⟩ := PathTree.exists_head_of_mem_keys listed
    obtain ⟨own, rest, shape, none, _⟩ := foreign mapping member
    rw [shape, List.head?_cons, Option.some.injEq] at head
    exact head ▸ none
  rw [object, object, typedEntries_append, typedEntries_foreign unknown, List.append_nil]

theorem Foreign.leavesOf_append {fields dropped : List FieldMapping} (foreign : Foreign info fields dropped) :
    PathTree.leavesOf (PathTree.build (fields ++ dropped)) =
      PathTree.leavesOf (PathTree.build fields) ++ PathTree.leavesOf (PathTree.build dropped) := by
  rw [foreign.build_append, PathTree.leavesOf_append]

theorem Foreign.exists_leaf {fields dropped : List FieldMapping} (foreign : Foreign info fields dropped)
    (some : dropped ≠ []) : ∃ mapping others, PathTree.leavesOf (PathTree.build dropped) = mapping :: others := by
  obtain ⟨mapping, member⟩ := List.exists_mem_of_ne_nil dropped some
  obtain ⟨key, rest, shape, _⟩ := foreign mapping member
  obtain ⟨leaf, listed⟩ :=
    (PathTree.tidy_build dropped).exists_leaf (PathTree.build_ne_nil member (by simp [shape]))
  exact List.exists_cons_of_ne_nil (List.ne_nil_of_mem listed)

theorem Foreign.entityCollection_append {format : InputFormat} (structured : format.isRow = false)
    {fields dropped : List FieldMapping} (filled : PathTree.leavesOf (PathTree.build fields) ≠ [])
    (foreign : Foreign info fields dropped)
    (common : (ArrayRoot.common? (PathTree.leavesOf (PathTree.build (fields ++ dropped)))).isSome) :
    context.entityCollection format (some info) (fields ++ dropped) =
      context.entityCollection format (some info) fields := by
  obtain ⟨shared, all⟩ := Option.isSome_iff_exists.mp common
  have through := (ArrayRoot.collect_ok all).2
  have distinct := (PathTree.tidy_build (fields ++ dropped)).nodup_paths
  have cut := all
  rw [foreign.leavesOf_append] at through distinct cut
  obtain ⟨own, first⟩ := Option.isSome_iff_exists.mp ((ArrayRoot.common?_isSome_iff filled).mpr
    ⟨shared.root, fun mapping member => through mapping (List.mem_append_left _ member)⟩)
  obtain ⟨sameRoot, alike⟩ := LeafReader.alike_fromEntry context.leaf distinct first cut
  have sameObject : context.object (some info) (.fromEntry shared.relatives) 0 (PathTree.build fields) =
      context.object (some info) (.fromEntry own.relatives) 0 (PathTree.build fields) := by
    rw [object, object, typedEntries_alike info alike]
  rw [entityCollection_of_common structured all, entityCollection_of_common structured first, foreign.build_append,
    foreign.object_append, sameObject, sameRoot]

/--
Mappings under keys that are no properties of the type do not change what is written of one entity. A list of
entities stays the same just if there are none, or if in a document all leaves, with those that are dropped, run
through one array: otherwise the dropped leaves are read and correlated with the others.
-/
theorem dropped_agrees_iff (context : EntityContext) {info : TypeInfo} {fields dropped : List FieldMapping}
    (filled : PathTree.leavesOf (PathTree.build fields) ≠ []) (foreign : Foreign info fields dropped) :
    context.entity (some info) (fields ++ dropped) = context.entity (some info) fields ∧
    ∀ format target e, (context.entityCollection format (some info) fields).write target = .ok e →
      ((context.entityCollection format (some info) (fields ++ dropped)).write target = .ok e ↔
        dropped = [] ∨ format.isRow = false ∧ ∃ root,
          ∀ mapping ∈ PathTree.leavesOf (PathTree.build (fields ++ dropped)), ∃ relative,
            ArrayRoot.split? mapping.source = some (root, relative)) := by
  have all : PathTree.leavesOf (PathTree.build (fields ++ dropped)) ≠ [] := by
    rw [foreign.leavesOf_append]
    exact List.append_ne_nil_of_left_ne_nil filled _
  constructor
  · rw [entity, entity, foreign.build_append, foreign.object_append, ← foreign.build_append]
    simp only [List.isEmpty_iff, all, filled, if_false]
  · intro format target e own
    rw [← ArrayRoot.common?_isSome_iff all]
    constructor
    · intro same
      by_contra apart
      -- Without a common array root the leaves become one block, which has a slot for each dropped one too.
      obtain ⟨some, noArray⟩ := not_or.mp apart
      obtain ⟨mapping, others, shape⟩ := foreign.exists_leaf some
      rw [entityCollection_of_none (row_or_none noArray)] at same
      exact (apart_of_zipped filled (shape ▸ foreign.leavesOf_append) own same).ne rfl
    · rintro (rfl | ⟨structured, common⟩)
      · rwa [List.append_nil]
      · rwa [foreign.entityCollection_append structured filled common]

/-! ## Skills with a note -/

def skillCatalog : Catalog where
  types := [⟨"skill", [⟨"displayName", "Edm.String", true⟩], none⟩]
  names_distinct := by decide

def skillInfo : TypeInfo :=
  ⟨"skill", .ofName "skill", [("displayName",
    ⟨"displayName", "DisplayName", ⟨false, Element.ofScalar ⟨"string", "string", "str"⟩ "a string"⟩, true⟩)]⟩

def skillMapping (path jsonPath : String) : FieldMapping := ⟨path, { jsonPath := some jsonPath }⟩

def skillColumn (path header : String) : FieldMapping := ⟨path, { headers := [header] }⟩

theorem dropped_agrees_iff_note :
    PathTree.leavesOf (PathTree.build [skillMapping "displayName" "$.skills[*].name"]) ≠ [] ∧
    Foreign skillInfo [skillMapping "displayName" "$.skills[*].name"] [skillMapping "note" "$.skills[*].note"] ∧
    ∀ target e,
      ((⟨[], {}⟩ : EntityContext).entityCollection .json (some skillInfo)
        [skillMapping "displayName" "$.skills[*].name"]).write target = .ok e →
      ((⟨[], {}⟩ : EntityContext).entityCollection .json (some skillInfo)
        [skillMapping "displayName" "$.skills[*].name", skillMapping "note" "$.skills[*].note"]).write target =
          .ok e := by
  have filled : PathTree.leavesOf (PathTree.build [skillMapping "displayName" "$.skills[*].name"]) ≠ [] := by
    decide
  have foreign : Foreign skillInfo [skillMapping "displayName" "$.skills[*].name"]
      [skillMapping "note" "$.skills[*].note"] := by
    intro mapping listed
    cases List.mem_singleton.mp listed
    exact ⟨"note", [], by decide⟩
  have through : ∀ mapping ∈ PathTree.leavesOf (PathTree.build
      ([skillMapping "displayName" "$.skills[*].name"] ++ [skillMapping "note" "$.skills[*].note"])),
      (ArrayRoot.split? mapping.source).map Prod.fst = some "$.skills[*]" := by decide
  refine ⟨filled, foreign, fun target e own => ?_⟩
  refine ((dropped_agrees_iff ⟨[], {}⟩ filled foreign).2 .json target e own).mpr (.inr ⟨rfl, "$.skills[*]", ?_⟩)
  intro mapping listed
  obtain ⟨⟨root, relative⟩, cut, rfl⟩ := Option.map_eq_some_iff.mp (through mapping listed)
  exact ⟨relative, cut⟩

/-- A column that no property takes is read beside the names, and there are as many entities as it has values. -/
theorem dropped_correlates :
    (Bundle.build skillCatalog {} "skill").map (·.typeMap) = .ok [("skill", skillInfo)] ∧
    Foreign skillInfo [skillColumn "displayName" "Skill"] [skillColumn "note" "Note"] ∧
    ((⟨[("skill", skillInfo)], {}⟩ : EntityContext).entityCollection .csv (some skillInfo)
      [skillColumn "displayName" "Skill"]).write .python = .ok ("[to_json(Skill(\x7b\n" ++
        "                \"displayName\": value,\n" ++
        "            \x7d)) for value in parse_string_collection(read_source_value(row, [\"Skill\"]))]") ∧
    ((⟨[("skill", skillInfo)], {}⟩ : EntityContext).entityCollection .csv (some skillInfo)
      [skillColumn "displayName" "Skill", skillColumn "note" "Note"]).write .python = .ok ("(lambda field0, field1: " ++
        "[to_json(Skill(\x7b\n" ++
        "                \"displayName\": get_value(field0, index),\n" ++
        "            \x7d)) for index in range(broadcast_length(field0, field1))])(\n" ++
        "        parse_string_collection(read_source_value(row, [\"Skill\"])),\n" ++
        "        parse_string_collection(read_source_value(row, [\"Note\"])),\n" ++
        "    )") ∧
    ∀ target : Target,
      ((⟨[("skill", skillInfo)], {}⟩ : EntityContext).entityCollection .csv (some skillInfo)
        [skillColumn "displayName" "Skill", skillColumn "note" "Note"]).write target ≠
      ((⟨[("skill", skillInfo)], {}⟩ : EntityContext).entityCollection .csv (some skillInfo)
        [skillColumn "displayName" "Skill"]).write target := by
  refine ⟨by decide, ?_, by decide +kernel, by decide +kernel, ?_⟩
  · intro mapping listed
    cases List.mem_singleton.mp listed
    exact ⟨"note", [], by decide⟩
  · intro target
    cases target <;> decide

end EntityContext

end ProfileConnector
