import ProfileConnector.Proofs.Plan.Rerooted
import ProfileConnector.Proofs.Plan.Subtree
import ProfileConnector.Proofs.Script.Collection

/-!
Slots of plans. Blocks in one another take their slots from one counter, so no two blocks of a plan share a
variable. A leaf in a block is looked up by its raw path among the leaves of the innermost block; no two
leaves of a tree have one path, so it finds the slot that holds what is read for this very leaf.
-/

namespace ProfileConnector

namespace Plan

mutual

/-- The slots that the blocks of a plan fill, at any depth. -/
def slots : Plan → List Nat
  | .converted _ value => slots value
  | .record entries => entrySlots entries
  | .typed _ members => memberSlots members
  | .serialized value => slots value
  | .mapped _ _ _ body => slots body
  | .broadcast reads _ _ body => reads.map Prod.fst ++ slots body
  | .eachEntry _ body => slots body
  | .principal members => entrySlots members
  | .defaulted _ _ value => slots value
  | .validated _ value => slots value
  | _ => []

def entrySlots : List (String × Plan) → List Nat
  | [] => []
  | (_, value) :: rest => slots value ++ entrySlots rest

def memberSlots : List (PropertyInfo × Plan) → List Nat
  | [] => []
  | (_, value) :: rest => slots value ++ memberSlots rest

end

def boundNames (plan : Plan) : List String := plan.slots.map Layout.slotName

end Plan

/-! ## Scopes -/

/-- What leaves are read from: the row, the raw value of one leaf, the slots of a block or an array entry. -/
inductive Scope where
  | row
  | value (mapping : FieldMapping)
  | block (slots : SlotReads)
  | entry (shared : ArrayRoot)

namespace Scope

/-- The plan reads the leaf in the scope, and what it looks up there was bound for this leaf. -/
inductive Reads (leaf : LeafLimits) : Scope → FieldMapping → Plan → Prop
  | single {mapping : FieldMapping} : Reads leaf .row mapping (.single (leaf.read mapping.source))
  | many {mapping : FieldMapping} : Reads leaf .row mapping (.many (leaf.read mapping.source))
  | element {mapping : FieldMapping} : Reads leaf (.value mapping) mapping .element
  | elementList {mapping : FieldMapping} : Reads leaf (.value mapping) mapping .elementList
  | picked {block : SlotReads} {mapping : FieldMapping} {slot : Nat}
      (found : LeafReader.slot? block.slots mapping = some slot)
      (bound : (slot, leaf.read mapping.source) ∈ block.reads) : Reads leaf (.block block) mapping (.picked slot)
  | pickedList {block : SlotReads} {mapping : FieldMapping} {slot : Nat}
      (found : LeafReader.slot? block.slots mapping = some slot)
      (bound : (slot, leaf.read mapping.source) ∈ block.reads) : Reads leaf (.block block) mapping (.pickedList slot)
  | entry {shared : ArrayRoot} {mapping : FieldMapping} {relative : String}
      (found : LeafReader.relative? shared.relatives mapping = some relative)
      (cut : ArrayRoot.split? mapping.source = some (shared.root, relative)) :
      Reads leaf (.entry shared) mapping (.single (leaf.readEntry relative mapping.source.fallback))
  | entryList {shared : ArrayRoot} {mapping : FieldMapping} {relative : String}
      (found : LeafReader.relative? shared.relatives mapping = some relative)
      (cut : ArrayRoot.split? mapping.source = some (shared.root, relative)) :
      Reads leaf (.entry shared) mapping (.many (leaf.readEntry relative mapping.source.fallback))
  | converted {scope : Scope} {mapping : FieldMapping} {value : Plan} (descriptor : Descriptor)
      (inner : Reads leaf scope mapping value) : Reads leaf scope mapping (.converted descriptor value)

end Scope

/-! ## Trees in scopes -/

mutual

/-- The plan stands for the tree in the scope; every leaf that it has a value for is read in the innermost scope. -/
inductive Placed (leaf : LeafLimits) : Scope → PathTree → Plan → Prop
  | leaf {scope : Scope} {mapping : FieldMapping} {value : Plan} (reads : scope.Reads leaf mapping value) :
      Placed leaf scope (.leaf mapping) value
  | record {scope : Scope} {children : PathTree.Branches} {entries : List (String × Plan)}
      (each : EntriesPlaced leaf scope children entries) : Placed leaf scope (.node children) (.record entries)
  | typed {scope : Scope} {children : PathTree.Branches} {members : List (PropertyInfo × Plan)} (info : TypeInfo)
      (each : MembersPlaced leaf info scope children members) :
      Placed leaf scope (.node children) (.typed info.names members)
  | absent {scope : Scope} {children : PathTree.Branches} (bare : PathTree.leavesOf children = []) :
      Placed leaf scope (.node children) .absent
  | filled {scope : Scope} {children : PathTree.Branches} {mapping : FieldMapping}
      (first : (PathTree.leavesOf children).head? = some mapping) :
      Placed leaf scope (.node children) (.filled (leaf.read mapping.source))
  | mapped {scope : Scope} {children : PathTree.Branches} {mapping : FieldMapping} {body : Plan}
      (element : DisplayNames) (absentIfEmpty : Bool) (only : PathTree.leavesOf children = [mapping])
      (inner : Placed leaf (.value mapping) (.node children) body) :
      Placed leaf scope (.node children) (.mapped (leaf.read mapping.source) element absentIfEmpty body)
  | broadcast {scope : Scope} {children : PathTree.Branches} {block : SlotReads} {body : Plan}
      (element : DisplayNames) (absentIfEmpty : Bool) (next : Nat)
      (allocated : block = SlotReads.allocate leaf next (PathTree.leavesOf children))
      (inner : Placed leaf (.block block) (.node children) body) :
      Placed leaf scope (.node children) (.broadcast block.reads element absentIfEmpty body)
  | eachEntry {scope : Scope} {children : PathTree.Branches} {shared : ArrayRoot} {body : Plan}
      (common : ArrayRoot.common? (PathTree.leavesOf children) = some shared)
      (inner : Placed leaf (.entry shared) (.node children) body) :
      Placed leaf scope (.node children) (.eachEntry shared.root body)
  | serialized {scope : Scope} {tree : PathTree} {value : Plan} (inner : Placed leaf scope tree value) :
      Placed leaf scope tree (.serialized value)

inductive EntriesPlaced (leaf : LeafLimits) : Scope → List (String × PathTree) → List (String × Plan) → Prop
  | nil {scope : Scope} : EntriesPlaced leaf scope [] []
  | cons {scope : Scope} {key : String} {child : PathTree} {value : Plan} {rest : List (String × PathTree)}
      {entries : List (String × Plan)} (first : Placed leaf scope child value)
      (others : EntriesPlaced leaf scope rest entries) :
      EntriesPlaced leaf scope ((key, child) :: rest) ((key, value) :: entries)

inductive MembersPlaced (leaf : LeafLimits) :
    TypeInfo → Scope → List (String × PathTree) → List (PropertyInfo × Plan) → Prop
  | nil {info : TypeInfo} {scope : Scope} : MembersPlaced leaf info scope [] []
  | dropped {info : TypeInfo} {scope : Scope} {key : String} {child : PathTree} {rest : List (String × PathTree)}
      {members : List (PropertyInfo × Plan)} (foreign : info.property? key = none)
      (others : MembersPlaced leaf info scope rest members) :
      MembersPlaced leaf info scope ((key, child) :: rest) members
  | kept {info : TypeInfo} {scope : Scope} {key : String} {child : PathTree} {property : PropertyInfo} {value : Plan}
      {rest : List (String × PathTree)} {members : List (PropertyInfo × Plan)}
      (owned : info.property? key = some property) (first : Placed leaf scope child value)
      (others : MembersPlaced leaf info scope rest members) :
      MembersPlaced leaf info scope ((key, child) :: rest) ((property, value) :: members)

end

/-! ## What readers serve -/

namespace LeafReader

def Serves (leaf : LeafLimits) (reader : LeafReader) (scope : Scope) (leaves : List FieldMapping) : Prop :=
  ∀ mapping ∈ leaves, scope.Reads leaf mapping (reader.single leaf mapping) ∧
    scope.Reads leaf mapping (reader.many leaf mapping)

variable {leaf : LeafLimits} {reader : LeafReader} {scope : Scope} {leaves : List FieldMapping}

theorem Serves.subset {others : List FieldMapping} (serves : reader.Serves leaf scope leaves)
    (within : others ⊆ leaves) : reader.Serves leaf scope others :=
  fun mapping listed => serves mapping (within listed)

theorem serves_fromRow : fromRow.Serves leaf .row leaves := fun _ _ => ⟨.single, .many⟩

theorem serves_fromElement (mapping : FieldMapping) : fromElement.Serves leaf (.value mapping) [mapping] := by
  intro other listed
  cases List.mem_singleton.mp listed
  exact ⟨.element, .elementList⟩

theorem serves_fromSlots (leaf : LeafLimits) (distinct : (leaves.map (·.path)).Nodup) (next : Nat) :
    (fromSlots (SlotReads.allocate leaf next leaves).slots).Serves leaf
      (.block (SlotReads.allocate leaf next leaves)) leaves := by
  intro mapping listed
  obtain ⟨i, inside, rfl⟩ := List.getElem_of_mem listed
  have found : slot? (SlotReads.allocate leaf next leaves).slots leaves[i] = some (next + i) :=
    SlotReads.slot_allocate distinct inside
  have bound : (next + i, leaf.read leaves[i].source) ∈ (SlotReads.allocate leaf next leaves).reads :=
    List.mem_mapIdx.mpr ⟨i, inside, rfl⟩
  simp only [single, many, found, Option.getD_some]
  exact ⟨.picked found bound, .pickedList found bound⟩

theorem relative?_of_collect {found : Option ArrayRoot} {shared : ArrayRoot} (distinct : (leaves.map (·.path)).Nodup)
    (collected : ArrayRoot.collect found leaves = some shared) :
    (∀ path, path ∉ leaves.map (·.path) →
      KeyedList.get? path shared.relatives = found.bind fun known => KeyedList.get? path known.relatives) ∧
    ∀ mapping ∈ leaves, ∀ root relative, ArrayRoot.split? mapping.source = some (root, relative) →
      relative? shared.relatives mapping = some relative := by
  induction leaves generalizing found with
  | nil =>
    rw [ArrayRoot.collect] at collected
    simp [collected]
  | cons first rest ih =>
    obtain ⟨fresh, others⟩ := List.nodup_cons.mp distinct
    obtain ⟨root, relative, cut, _, continued⟩ := ArrayRoot.collect_cons_ok collected
    have held (path : String) :
        KeyedList.get? path (KeyedList.put first.path relative ((found.map (·.relatives)).getD [])) =
          if first.path = path then some relative else found.bind fun known => KeyedList.get? path known.relatives := by
      cases found <;> simp [KeyedList.get?_put, KeyedList.get?]
    obtain ⟨elsewhere, own⟩ := ih others continued
    refine ⟨fun path absent => ?_, fun mapping listed root' relative' own' => ?_⟩
    · rw [List.map_cons, List.mem_cons, not_or] at absent
      rw [elsewhere path absent.2, Option.bind_some, held, if_neg (Ne.symm absent.1)]
    · rcases List.mem_cons.mp listed with rfl | behind
      · cases cut.symm.trans own'
        rw [relative?, elsewhere _ fresh, Option.bind_some, held, if_pos rfl]
      · exact own mapping behind root' relative' own'

theorem serves_fromEntry (leaf : LeafLimits) {shared : ArrayRoot} (distinct : (leaves.map (·.path)).Nodup)
    (common : ArrayRoot.common? leaves = some shared) :
    (fromEntry shared.relatives).Serves leaf (.entry shared) leaves := by
  intro mapping listed
  obtain ⟨relative, cut⟩ := (ArrayRoot.collect_ok common).2 mapping listed
  have found := (relative?_of_collect distinct common).2 mapping listed _ _ cut
  simp only [single, many, found, Option.getD_some]
  exact ⟨.entry found cut, .entryList found cut⟩

end LeafReader

namespace EntityContext

variable {context : EntityContext} {info : TypeInfo} {reader : LeafReader} {scope : Scope} {next : Nat}

/-! ## Slots -/

theorem slots_single (leaf : LeafLimits) (mapping : FieldMapping) (reader : LeafReader) :
    (reader.single leaf mapping).slots = [] := by
  cases reader <;> simp [LeafReader.single, Plan.slots]

theorem slots_many (leaf : LeafLimits) (mapping : FieldMapping) (reader : LeafReader) :
    (reader.many leaf mapping).slots = [] := by
  cases reader <;> simp [LeafReader.many, Plan.slots]

theorem slots_leafMember (reader : LeafReader) (property : PropertyInfo) (mapping : FieldMapping) :
    (context.leafMember reader property mapping).slots = [] := by
  unfold leafMember
  simp only
  split
  · exact slots_many _ _ _
  · rw [Plan.slots, slots_single]

theorem slots_untypedEntries (context : EntityContext) (reader : LeafReader) (tree : PathTree.Branches) :
    Plan.entrySlots (context.untypedEntries reader tree) = [] := by
  induction tree using PathTree.branches_induction with
  | nil => rw [untypedEntries, Plan.entrySlots]
  | leaf key mapping rest others => rw [untypedEntries, untyped, Plan.entrySlots, slots_single, others, List.append_nil]
  | node key children rest below others =>
    rw [untypedEntries, untyped, Plan.entrySlots, Plan.slots, below, others, List.append_nil]

/-- A plan made from a slot on fills the slots from there up to the next free one, each once. -/
def FillsFrom (next : Nat) (made : List Nat) (after : Nat) : Prop :=
  ∃ count, after = next + count ∧ made = List.range' next count

theorem FillsFrom.nil (next : Nat) : FillsFrom next [] next := ⟨0, rfl, rfl⟩

theorem FillsFrom.append {middle after : Nat} {first second : List Nat} (early : FillsFrom next first middle)
    (late : FillsFrom middle second after) : FillsFrom next (first ++ second) after := by
  obtain ⟨count, rfl, rfl⟩ := early
  obtain ⟨count', rfl, rfl⟩ := late
  exact ⟨count + count', Nat.add_assoc _ _ _, List.range'_append_1⟩

theorem FillsFrom.nodup {made : List Nat} {after : Nat} (fills : FillsFrom next made after) : made.Nodup := by
  obtain ⟨count, _, rfl⟩ := fills
  exact List.nodup_range'

theorem fills_allocate (leaf : LeafLimits) (next : Nat) (leaves : List FieldMapping) :
    FillsFrom next ((SlotReads.allocate leaf next leaves).reads.map Prod.fst) (next + leaves.length) := by
  refine ⟨leaves.length, rfl, List.ext_getElem (by simp [SlotReads.allocate]) fun i _ _ => ?_⟩
  simp [SlotReads.allocate]

theorem fills_typedMember {children : PathTree.Branches} {property : PropertyInfo}
    (below : ∀ (info : TypeInfo) (reader : LeafReader) (next : Nat),
      FillsFrom next (Plan.memberSlots (context.typedEntries info reader next children).1)
        (context.typedEntries info reader next children).2) (reader : LeafReader) (next : Nat) :
    FillsFrom next (context.typedMember property reader next (.node children)).1.slots
      (context.typedMember property reader next (.node children)).2 := by
  have record (reader : LeafReader) (next : Nat) :
      FillsFrom next (context.recordBelow property reader next children).1.slots
        (context.recordBelow property reader next children).2 := by
    unfold recordBelow
    split
    · rw [Plan.slots, slots_untypedEntries]
      exact .nil next
    · rw [Plan.slots]
      exact below _ reader next
  rcases context.typedMember_node property reader next children with ⟨_, same⟩ | ⟨_, same⟩ | ⟨_, _, same⟩ |
    ⟨_, _, same⟩ | ⟨block, body, rfl, rfl, same⟩ <;> rw [same]
  · exact record reader next
  · exact .nil next
  · exact .nil next
  · rw [Plan.slots]
    exact record _ next
  · rw [Plan.slots]
    exact (fills_allocate _ _ _).append (record _ _)

theorem fills_typedEntries (info : TypeInfo) (reader : LeafReader) (next : Nat) (tree : PathTree.Branches) :
    FillsFrom next (Plan.memberSlots (context.typedEntries info reader next tree).1)
      (context.typedEntries info reader next tree).2 := by
  induction tree using PathTree.branches_induction generalizing info reader next with
  | nil => exact .nil next
  | leaf key mapping rest others =>
    rw [typedEntries]
    split
    · exact others info reader next
    · rw [Plan.memberSlots, typedMember, slots_leafMember]
      exact others info reader next
  | node key children rest below others =>
    rw [typedEntries]
    split
    · exact others info reader next
    · exact (fills_typedMember below reader next).append (others info reader _)

/-! ## Leaves -/

theorem placed_untypedEntries {tree : PathTree.Branches}
    (serves : reader.Serves context.leaf scope (PathTree.leavesOf tree)) :
    EntriesPlaced context.leaf scope tree (context.untypedEntries reader tree) := by
  induction tree using PathTree.branches_induction with
  | nil =>
    rw [untypedEntries]
    exact .nil
  | leaf key mapping rest others =>
    rw [PathTree.leavesOf, PathTree.leaves] at serves
    rw [untypedEntries, untyped]
    exact .cons (.leaf (serves mapping List.mem_cons_self).1) (others (serves.subset (List.subset_append_right _ _)))
  | node key children rest below others =>
    rw [PathTree.leavesOf, PathTree.leaves] at serves
    rw [untypedEntries, untyped]
    exact .cons (.record (below (serves.subset (List.subset_append_left _ _))))
      (others (serves.subset (List.subset_append_right _ _)))

theorem placed_leafMember {mapping : FieldMapping} (serves : reader.Serves context.leaf scope [mapping])
    (property : PropertyInfo) :
    Placed context.leaf scope (.leaf mapping) (context.leafMember reader property mapping) := by
  obtain ⟨single, many⟩ := serves mapping List.mem_cons_self
  unfold leafMember
  simp only
  split
  · exact .leaf many
  · exact .leaf (.converted _ single)

theorem placed_typedMember {path : List String} {children : PathTree.Branches} (tidy : PathTree.Tidy path children)
    {property : PropertyInfo}
    (below : ∀ (info : TypeInfo) (reader : LeafReader) (scope : Scope) (next : Nat),
      reader.Serves context.leaf scope (PathTree.leavesOf children) →
      MembersPlaced context.leaf info scope children (context.typedEntries info reader next children).1)
    (serves : reader.Serves context.leaf scope (PathTree.leavesOf children)) (next : Nat) :
    Placed context.leaf scope (.node children) (context.typedMember property reader next (.node children)).1 := by
  have record (reader : LeafReader) (scope : Scope) (next : Nat)
      (serves : reader.Serves context.leaf scope (PathTree.leavesOf children)) :
      Placed context.leaf scope (.node children) (context.recordBelow property reader next children).1 := by
    unfold recordBelow
    split
    · exact .record (placed_untypedEntries serves)
    · exact .typed _ (below _ reader scope next serves)
  rcases context.typedMember_node property reader next children with ⟨_, same⟩ | ⟨bare, same⟩ | ⟨mapping, first, same⟩ |
    ⟨mapping, only, same⟩ | ⟨block, body, allocated, rfl, same⟩ <;> rw [same]
  · exact record reader scope next serves
  · exact .absent bare
  · exact .filled first
  · refine .mapped _ true only (record .fromElement _ next ?_)
    rw [only]
    exact LeafReader.serves_fromElement mapping
  · refine .broadcast _ true next allocated (record _ _ _ ?_)
    rw [allocated]
    exact LeafReader.serves_fromSlots context.leaf tidy.nodup_paths next

theorem placed_typedEntries {path : List String} {tree : PathTree.Branches} (tidy : PathTree.Tidy path tree)
    (info : TypeInfo) (next : Nat) (serves : reader.Serves context.leaf scope (PathTree.leavesOf tree)) :
    MembersPlaced context.leaf info scope tree (context.typedEntries info reader next tree).1 := by
  induction tree using PathTree.branches_induction generalizing path info reader scope next with
  | nil =>
    rw [typedEntries]
    exact .nil
  | leaf key mapping rest others =>
    rw [PathTree.leavesOf, PathTree.leaves] at serves
    have later := serves.subset (List.subset_append_right _ _)
    rw [typedEntries]
    split
    · exact .dropped ‹_› (others tidy.tail info next later)
    · have own := serves.subset (List.subset_append_left _ _)
      exact .kept ‹_› (placed_leafMember own _) (others tidy.tail info _ later)
  | node key children rest below others =>
    rw [PathTree.leavesOf, PathTree.leaves] at serves
    have later := serves.subset (List.subset_append_right _ _)
    have inner := tidy.child List.mem_cons_self
    rw [typedEntries]
    split
    · exact .dropped ‹_› (others tidy.tail info next later)
    · refine .kept ‹_› (placed_typedMember inner ?_ (serves.subset (List.subset_append_left _ _)) next)
        (others tidy.tail info _ later)
      exact fun info reader scope next => below inner info next

/-! ## Entities -/

theorem fills_object (context : EntityContext) (info : Option TypeInfo) (reader : LeafReader) (next : Nat)
    (tree : PathTree.Branches) :
    ∃ after, FillsFrom next (context.object info reader next tree).slots after := by
  cases info with
  | none =>
    refine ⟨next, ?_⟩
    rw [object, Plan.slots, slots_untypedEntries]
    exact .nil next
  | some info =>
    rw [object, Plan.slots]
    exact ⟨_, fills_typedEntries info reader next tree⟩

theorem placed_object {path : List String} {tree : PathTree.Branches} (tidy : PathTree.Tidy path tree)
    (info : Option TypeInfo) (next : Nat) (serves : reader.Serves context.leaf scope (PathTree.leavesOf tree)) :
    Placed context.leaf scope (.node tree) (context.object info reader next tree) := by
  cases info with
  | none => exact .record (placed_untypedEntries serves)
  | some info => exact .typed info (placed_typedEntries tidy info next serves)

end EntityContext

/-- The blocks of a plan bind distinct variables, and the leaves of a tree are read from what is bound for them. -/
structure Plan.Scoped (plan : Plan) (leaf : LeafLimits) (tree : PathTree.Branches) : Prop where
  distinct : plan.boundNames.Nodup
  placed : Placed leaf .row (.node tree) plan

namespace EntityContext

variable {context : EntityContext}

theorem FillsFrom.boundNames {plan : Plan} {next after : Nat} (fills : FillsFrom next plan.slots after) :
    plan.boundNames.Nodup := fills.nodup.map slotName_injective

theorem scoped_entity (context : EntityContext) (info : Option TypeInfo) (fields : List FieldMapping) :
    (context.entity info fields).Scoped context.leaf (PathTree.build fields) := by
  unfold entity
  simp only
  split
  · rename_i bare
    exact ⟨List.nodup_nil, .absent (List.isEmpty_iff.mp bare)⟩
  · refine ⟨?_, .serialized (placed_object (PathTree.tidy_build fields) info 0 LeafReader.serves_fromRow)⟩
    rw [Plan.boundNames, Plan.slots]
    obtain ⟨after, fills⟩ := fills_object context info .fromRow 0 (PathTree.build fields)
    exact fills.boundNames

theorem scoped_zipped {path : List String} {tree : PathTree.Branches} (tidy : PathTree.Tidy path tree)
    (info : Option TypeInfo) : (context.zipped info tree).Scoped context.leaf tree := by
  unfold zipped
  split
  · rename_i bare
    exact ⟨List.nodup_nil, .absent bare⟩
  · rename_i mapping only
    have serves : LeafReader.fromElement.Serves context.leaf (.value mapping) (PathTree.leavesOf tree) :=
      only ▸ LeafReader.serves_fromElement mapping
    refine ⟨?_, .mapped _ _ only (.serialized (placed_object tidy info 0 serves))⟩
    rw [Plan.boundNames, Plan.slots, Plan.slots]
    obtain ⟨after, fills⟩ := fills_object context info .fromElement 0 tree
    exact fills.boundNames
  · have serves := LeafReader.serves_fromSlots context.leaf tidy.nodup_paths 0
    refine ⟨?_, .broadcast _ _ 0 rfl (.serialized (placed_object tidy info _ serves))⟩
    rw [Plan.boundNames, Plan.slots, Plan.slots]
    have own := fills_allocate context.leaf 0 (PathTree.leavesOf tree)
    rw [Nat.zero_add] at own
    obtain ⟨after, fills⟩ := fills_object context info _ _ tree
    exact (own.append fills).nodup.map slotName_injective

/--
However mappings are made into one entity or a list of entities, all blocks at any depth bind variables of
their own; and each leaf of the tree that gets a value is found where it is looked up: in a block under the
slot that is filled, in this block, with what is read for this very leaf.
-/
theorem scoped_entities (context : EntityContext) (format : InputFormat) (info : Option TypeInfo)
    (fields : List FieldMapping) :
    (context.entity info fields).Scoped context.leaf (PathTree.build fields) ∧
      (context.entityCollection format info fields).Scoped context.leaf (PathTree.build fields) := by
  refine ⟨scoped_entity context info fields, ?_⟩
  have tidy := PathTree.tidy_build fields
  unfold entityCollection
  simp only
  split
  · rename_i shared found
    have common : ArrayRoot.common? (PathTree.leavesOf (PathTree.build fields)) = some shared := by
      split at found
      · cases found
      · exact found
    have serves := LeafReader.serves_fromEntry context.leaf tidy.nodup_paths common
    refine ⟨?_, .eachEntry common (.serialized (placed_object tidy info 0 serves))⟩
    rw [Plan.boundNames, Plan.slots, Plan.slots]
    obtain ⟨after, fills⟩ := fills_object context info (.fromEntry shared.relatives) 0 (PathTree.build fields)
    exact fills.boundNames
  · exact scoped_zipped tidy info

end EntityContext

end ProfileConnector
