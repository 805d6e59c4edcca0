import ProfileConnector.Proofs.PathTree
import ProfileConnector.Proofs.Script.Evaluation
import Std.Data.String.ToNat

/-!
What the script of an entity collection makes of a row of columns. A single mapped leaf gives one
serialized tree for every text that is read; of several leaves there is one for every position of the
longest list, each leaf standing for its text at that position. The invariant is that the variable
bound for a leaf holds the list of just this leaf, which rests on leaves having distinct paths.
-/

namespace ProfileConnector

open Outcome Term

/-! ## Trees as values -/

namespace PathTree

mutual

def valueWith (leafValue : FieldMapping → Value) : PathTree → Value
  | .leaf mapping => leafValue mapping
  | .node children => .record (membersWith leafValue children)

def membersWith (leafValue : FieldMapping → Value) : List (String × PathTree) → List (Text × Value)
  | [] => []
  | (key, child) :: rest => (Text.ofString key, valueWith leafValue child) :: membersWith leafValue rest

end

theorem membersWith_eq_zip (leafValue : FieldMapping → Value) (branches : Branches) :
    membersWith leafValue branches =
      ((KeyedList.keys branches).map Text.ofString).zip
        (branches.map fun entry => valueWith leafValue entry.2) := by
  induction branches with
  | nil => rfl
  | cons entry rest ih => simp [membersWith, ih, KeyedList.keys]

def serialized (tree : Branches) (leafValue : FieldMapping → Value) : Value :=
  Value.ofString (Value.toJson (.record (membersWith leafValue tree)))

end PathTree

variable {context : EntityContext} {bindings : Bindings} {reader : LeafReader} {row : Value}

theorem entryTerms_untyped (context : EntityContext) (reader : LeafReader) (branches : PathTree.Branches) :
    Python.entryTerms (context.untypedEntries reader branches) =
      branches.map fun entry => (entry.1, Python.term (context.untyped reader entry.2)) := by
  induction branches with
  | nil => simp [EntityContext.untypedEntries, Python.entryTerms]
  | cons entry rest ih => simp [EntityContext.untypedEntries, Python.entryTerms, ih]

theorem evaluate_untyped {path : List String} {tree : PathTree.Branches} (tidy : PathTree.Tidy path tree)
    (plain : ∀ mapping ∈ PathTree.leavesOf tree, mapping.InBasicPlane) (leafValue : FieldMapping → Value)
    (leaf : ∀ mapping ∈ PathTree.leavesOf tree,
      evaluate bindings (Python.term (reader.single context.leaf mapping)) = .ok (leafValue mapping)) :
    evaluate bindings (Python.term (.record (context.untypedEntries reader tree))) =
      .ok (.record (PathTree.membersWith leafValue tree)) := by
  induction tidy with
  | @intro path tree distinct placed inhabited below ih =>
    have tidy : PathTree.Tidy path tree := .intro distinct placed inhabited below
    rw [Python.term, entryTerms_untyped, PathTree.membersWith_eq_zip]
    have keys : KeyedList.keys (tree.map fun entry =>
        (entry.1, Python.term (context.untyped reader entry.2))) = KeyedList.keys tree := by
      simp [KeyedList.keys, Function.comp_def]
    rw [← keys]
    refine evaluate_dictionary ?_ (keys ▸ distinct) ?_
    · rw [keys]
      intro key member
      obtain ⟨⟨_, child⟩, listed, rfl⟩ := List.mem_map.mp member
      obtain ⟨mapping, within, segment⟩ := tidy.exists_key_mem listed
      exact (plain mapping (PathTree.mem_leavesOf.mpr ⟨_, child, listed, within⟩)).keys _ segment
    · rw [List.mapM_map]
      refine mapM_eq_map fun entry listed => ?_
      obtain ⟨key, child⟩ := entry
      have within : ∀ mapping ∈ PathTree.leaves child, mapping ∈ PathTree.leavesOf tree :=
        fun mapping member => PathTree.mem_leavesOf.mpr ⟨key, child, listed, member⟩
      cases child with
      | leaf mapping =>
        simpa [EntityContext.untyped, PathTree.valueWith] using leaf mapping (within mapping (by simp [PathTree.leaves]))
      | node children =>
        simp only [PathTree.leaves] at within
        simpa [EntityContext.untyped, PathTree.valueWith] using ih key children listed
          (fun mapping member => plain mapping (within mapping member))
          (fun mapping member => leaf mapping (within mapping member))

theorem evaluate_serialized {tree : PathTree.Branches} (tidy : PathTree.Tidy [] tree)
    (plain : ∀ mapping ∈ PathTree.leavesOf tree, mapping.InBasicPlane) (leafValue : FieldMapping → Value)
    (next : Nat) (leaf : ∀ mapping ∈ PathTree.leavesOf tree,
      evaluate bindings (Python.term (reader.single context.leaf mapping)) = .ok (leafValue mapping)) :
    evaluate bindings (Python.term (.serialized (context.object none reader next tree))) =
      .ok (PathTree.serialized tree leafValue) := by
  rw [Python.term, Python.serialized, evaluate_call, evaluateAll_eq]
  simp only [EntityContext.object, List.mapM_cons, List.mapM_nil]
  rw [evaluate_untyped tidy plain leafValue leaf]
  rfl

/-! ## Slots -/

theorem slotName_injective : Function.Injective Layout.slotName := by
  intro i j same
  have digits : toString i = toString j := (String.append_right_inj "field").mp same
  exact Nat.repr_injective digits

theorem slotName_ne_index (slot : Nat) : Layout.slotName slot ≠ "index" := by
  intro same
  have first := congrArg (fun s => s.toList.head?) same
  simp [Layout.slotName] at first

namespace SlotReads

variable {leaf : LeafLimits} {next : Nat} {leaves : List FieldMapping}

theorem slot_allocate (distinct : (leaves.map (·.path)).Nodup) {i : Nat} (inside : i < leaves.length) :
    LeafReader.slot? (allocate leaf next leaves).slots leaves[i] = some (next + i) := by
  have keys : KeyedList.keys (leaves.mapIdx fun i mapping => (mapping.path, next + i)) = leaves.map (·.path) :=
    List.ext_getElem? fun i => by simp [KeyedList.keys, Function.comp_def]
  unfold LeafReader.slot? allocate
  rw [KeyedList.ofPairs_eq (keys ▸ distinct), KeyedList.get?_eq_some (keys ▸ distinct), List.mem_mapIdx]
  exact ⟨i, inside, rfl⟩

def bound (next : Nat) (leaves : List FieldMapping) (values : FieldMapping → Value) : Bindings :=
  leaves.mapIdx fun i mapping => (Layout.slotName (next + i), values mapping)

theorem keys_bound (values : FieldMapping → Value) :
    KeyedList.keys (bound next leaves values) = leaves.mapIdx fun i _ => Layout.slotName (next + i) :=
  List.ext_getElem? fun i => by simp [bound, KeyedList.keys, Function.comp_def]

theorem nodup_names : (leaves.mapIdx fun i _ => Layout.slotName (next + i)).Nodup := by
  have named : (leaves.mapIdx fun i _ => Layout.slotName (next + i)) =
      (List.range' next leaves.length).map Layout.slotName :=
    List.ext_getElem (by simp) fun i _ _ => by simp
  rw [named]
  exact List.Nodup.map slotName_injective List.nodup_range'

theorem get?_bound (values : FieldMapping → Value) {i : Nat} (inside : i < leaves.length) :
    KeyedList.get? (Layout.slotName (next + i)) (bound next leaves values) = some (values leaves[i]) := by
  rw [KeyedList.get?_eq_some (keys_bound values ▸ nodup_names), bound, List.mem_mapIdx]
  exact ⟨i, inside, rfl⟩

end SlotReads

/-! ## Broadcasts -/

theorem evaluate_picked {leaves : List FieldMapping} {leaf : LeafLimits} {next position : Nat}
    (distinct : (leaves.map (·.path)).Nodup) (lists : FieldMapping → List Text) {mapping : FieldMapping}
    (listed : mapping ∈ leaves) :
    evaluate (("index", .int position) ::
        (SlotReads.bound next leaves (fun mapping => Helper.textList (lists mapping)) ++ bindings))
      (Python.term ((LeafReader.fromSlots (SlotReads.allocate leaf next leaves).slots).single leaf mapping)) =
      .ok (.text (Row.aligned (lists mapping) position)) := by
  obtain ⟨i, inside, rfl⟩ := List.getElem_of_mem listed
  have slot : LeafReader.slot? (SlotReads.allocate leaf next leaves).slots leaves[i] = some (next + i) :=
    SlotReads.slot_allocate distinct inside
  have found : KeyedList.get? (Layout.slotName (next + i))
      (SlotReads.bound next leaves fun mapping => Helper.textList (lists mapping)) =
      some (Helper.textList (lists leaves[i])) := SlotReads.get?_bound _ inside
  have apart := (slotName_ne_index (next + i)).symm
  simp only [LeafReader.single, slot, Option.getD_some, Python.term, Python.picked]
  rw [evaluate_call, evaluateAll_eq]
  simp [evaluate, lookup, KeyedList.get?, apart, KeyedList.get?_append, found, Helper.run, Helper.plain, Helper.two,
    Row.picked_textList]

theorem evaluate_broadcast {leaves : List FieldMapping} {next : Nat} {body : Term} {lists : FieldMapping → List Text}
    {results : Nat → Value} (bound : KeyedList.get? "row" bindings = some row)
    (plain : ∀ mapping ∈ leaves, mapping.source.InBasicPlane)
    (found : ∀ mapping ∈ leaves, Row.sourceTexts row mapping.source = .ok (lists mapping))
    (each : ∀ position, evaluate (("index", .int (position : Nat)) ::
        (SlotReads.bound next leaves (fun mapping => Helper.textList (lists mapping)) ++ bindings)) body =
      .ok (results position)) :
    evaluate bindings (Python.broadcast ((SlotReads.allocate {} next leaves).reads.map fun (slot, read) =>
        (Layout.slotName slot, Python.many read)) body false) =
      .ok (.list ((List.range (Row.longest (leaves.map lists))).map results)) := by
  let values := fun mapping => Helper.textList (lists mapping)
  have names : ((SlotReads.allocate {} next leaves).reads.map fun (slot, read) =>
      (Layout.slotName slot, Python.many read)).map Prod.fst =
      leaves.mapIdx fun i _ => Layout.slotName (next + i) :=
    List.ext_getElem? fun i => by simp [SlotReads.allocate, Function.comp_def]
  have reads : ((SlotReads.allocate {} next leaves).reads.map fun (slot, read) =>
      (Layout.slotName slot, Python.many read)).map Prod.snd =
      leaves.map fun mapping => Python.many (({} : LeafLimits).read mapping.source) :=
    List.ext_getElem? fun i => by simp [SlotReads.allocate, Function.comp_def]
  have arguments : evaluateAll bindings (leaves.map fun mapping =>
      Python.many (({} : LeafLimits).read mapping.source)) = .ok (leaves.map values) := by
    rw [evaluateAll_eq, List.mapM_map]
    refine mapM_eq_map fun mapping listed => ?_
    rw [Function.comp_apply, Python.evaluate_many bound (plain mapping listed), found mapping listed]
    rfl
  have zipped : (leaves.mapIdx fun i _ => Layout.slotName (next + i)).zip (leaves.map values) =
      SlotReads.bound next leaves values :=
    List.ext_getElem (by simp [SlotReads.bound]) fun i _ _ => by simp [SlotReads.bound]
  -- The body fetches the lists again by the names that they have been bound to.
  have fetched : evaluateAll (SlotReads.bound next leaves values ++ bindings)
      ((leaves.mapIdx fun i _ => Layout.slotName (next + i)).map .variable) =
      .ok ((leaves.map lists).map Helper.textList) := by
    rw [evaluateAll_eq, mapM_eq_ok, List.forall₂_iff_get]
    refine ⟨by simp, fun i first second => ?_⟩
    have inside : i < leaves.length := by simpa using first
    simpa using evaluate_variable (by
      rw [KeyedList.get?_append, SlotReads.get?_bound values inside, Option.some_or])
  have positions : evaluate (SlotReads.bound next leaves values ++ bindings)
      (.positions ((leaves.mapIdx fun i _ => Layout.slotName (next + i)).map .variable)) =
      .ok (.list ((List.range (Row.longest (leaves.map lists))).map fun i => .int (i : Nat))) := by
    simp only [evaluate, fetched, ok_bind, Row.broadcastLength_textList, pure_eq_ok]
  rw [Python.broadcast, names, reads, Python.absentWhenEmpty, if_neg Bool.false_ne_true]
  rw [evaluate, arguments, ok_bind, zipped]
  exact evaluate_comprehension positions each

/-! ## Collections -/

/--
The script of an entity collection without a type and without limits, run on a row whose reads return:
nothing without leaves; with one leaf, the serialized tree for every text that is read; with more, one
for every position of the longest list.
-/
theorem run_entityCollection (types : TypeMap) {format : InputFormat} (columns : format.isRow = true)
    (fields : List FieldMapping) (plain : ∀ mapping ∈ fields, mapping.InBasicPlane) (row : Value)
    (lists : FieldMapping → List Text)
    (found : ∀ leaf ∈ PathTree.leavesOf (PathTree.build fields),
      Row.sourceTexts row leaf.source = .ok (lists leaf)) :
    let tree := PathTree.build fields
    let leaves := PathTree.leavesOf tree
    let result := (Python.term (EntityContext.entityCollection ⟨types, {}⟩ format none fields)).run row
    (leaves = [] → result = .ok .null) ∧
    (∀ leaf, leaves = [leaf] →
      result = .ok (.list ((lists leaf).map fun t => PathTree.serialized tree fun _ => .text t))) ∧
    (2 ≤ leaves.length →
      result = .ok (.list ((List.range (Row.longest (leaves.map lists))).map fun position =>
        PathTree.serialized tree fun leaf => .text (Row.aligned (lists leaf) position)))) := by
  intro tree leaves result
  have tidy : PathTree.Tidy [] tree := PathTree.tidy_build fields
  have basic : ∀ mapping ∈ leaves, mapping.InBasicPlane :=
    fun mapping listed => plain mapping (PathTree.mem_of_mem_leavesOf_build listed)
  have direct : result = (Python.term (EntityContext.zipped ⟨types, {}⟩ none tree)).run row := by
    simp only [result, EntityContext.entityCollection, columns, if_true, tree]
  have bound : KeyedList.get? "row" [("row", row)] = some row := by simp [KeyedList.get?]
  refine ⟨fun empty => ?_, fun leaf single => ?_, fun several => ?_⟩
  · rw [direct, EntityContext.zipped, show PathTree.leavesOf tree = [] from empty]
    rfl
  · have listed : leaf ∈ leaves := single ▸ List.mem_singleton_self leaf
    have many : evaluate [("row", row)] (Python.many (({} : LeafLimits).read leaf.source)) =
        .ok (Helper.textList (lists leaf)) := by
      rw [Python.evaluate_many bound (basic leaf listed).source, found leaf listed]
      rfl
    have body : ∀ t, evaluate [("value", .text t), ("row", row)]
        (Python.term (.serialized (EntityContext.object ⟨types, {}⟩ none .fromElement 0 tree))) =
        .ok (PathTree.serialized tree fun _ => .text t) := fun t =>
      evaluate_serialized tidy basic _ 0 fun mapping _ => evaluate_variable (by simp [KeyedList.get?])
    rw [direct, EntityContext.zipped, show PathTree.leavesOf tree = [leaf] from single, Term.run]
    rw [Python.term, Python.mapped, Python.absentWhenEmpty, if_neg Bool.false_ne_true]
    exact evaluate_comprehension many body
  · -- Slots are looked up by path, and the surviving leaves have distinct paths.
    have distinct : (leaves.map (·.path)).Nodup := tidy.nodup_paths
    have shape : EntityContext.zipped ⟨types, {}⟩ none tree =
        .broadcast (SlotReads.allocate {} 0 leaves).reads EntityContext.textElement false
          (.serialized (EntityContext.object ⟨types, {}⟩ none
            (.fromSlots (SlotReads.allocate {} 0 leaves).slots) leaves.length tree)) := by
      obtain ⟨first, others, front⟩ := List.exists_cons_of_length_pos (Nat.zero_lt_of_lt several)
      obtain ⟨second, rest, rfl⟩ : ∃ second rest, others = second :: rest := by
        rw [front, List.length_cons] at several
        exact List.exists_cons_of_length_pos (Nat.lt_of_succ_lt_succ several)
      rw [EntityContext.zipped, show PathTree.leavesOf tree = first :: second :: rest from front, front]
    rw [direct, shape, Python.term, Term.run]
    exact evaluate_broadcast bound (fun mapping listed => (basic mapping listed).source) found fun position =>
      evaluate_serialized tidy basic _ _ fun mapping listed => evaluate_picked distinct lists listed

def nameFields : List FieldMapping :=
  [⟨"name", { headers := ["given"] }⟩, ⟨"name.first", { headers := ["given"] }⟩,
    ⟨"name.last", { headers := ["family"], fallback := some "-" }⟩]

def nameRow : Value := .record [(Text.ofString "given", Value.ofString "Ada; Alan")]

def nameLists (mapping : FieldMapping) : List Text :=
  if mapping.path = "name.first" then [Text.ofString "Ada", Text.ofString "Alan"] else [Text.ofString "-"]

theorem run_entityCollection_names :
    (∀ mapping ∈ nameFields, mapping.InBasicPlane) ∧
    (∀ leaf ∈ PathTree.leavesOf (PathTree.build nameFields),
      Row.sourceTexts nameRow leaf.source = .ok (nameLists leaf)) ∧
    (Python.term (EntityContext.entityCollection ⟨[], {}⟩ .csv none nameFields)).run nameRow =
      .ok (.list [Value.ofString "\x7b\"name\":\x7b\"first\":\"Ada\",\"last\":\"-\"\x7d\x7d",
        Value.ofString "\x7b\"name\":\x7b\"first\":\"Alan\",\"last\":\"-\"\x7d\x7d"]) := by
  have plain : ∀ mapping ∈ nameFields, mapping.InBasicPlane := by
    intro mapping listed
    simp only [nameFields, List.mem_cons, List.not_mem_nil, or_false] at listed
    rcases listed with rfl | rfl | rfl <;>
      exact ⟨by decide +kernel, ⟨by decide +kernel, by simp, by simp <;> decide +kernel⟩⟩
  have found : ∀ leaf ∈ PathTree.leavesOf (PathTree.build nameFields),
      Row.sourceTexts nameRow leaf.source = .ok (nameLists leaf) := by
    have shape : PathTree.leavesOf (PathTree.build nameFields) = nameFields.tail := by decide +kernel
    rw [shape]
    simp only [nameFields, List.tail_cons, List.mem_cons, List.not_mem_nil, or_false]
    rintro leaf (rfl | rfl) <;> decide +kernel
  have columns : InputFormat.csv.isRow = true := rfl
  have several := (run_entityCollection [] columns nameFields plain nameRow nameLists found).2.2 (by decide +kernel)
  have positions : Row.longest ((PathTree.leavesOf (PathTree.build nameFields)).map nameLists) = 2 := by decide +kernel
  have first : (Value.toJson (.record (PathTree.membersWith (fun leaf => .text (Row.aligned (nameLists leaf) 0))
      (PathTree.build nameFields)))) = "\x7b\"name\":\x7b\"first\":\"Ada\",\"last\":\"-\"\x7d\x7d" := by
    decide +kernel
  have second : (Value.toJson (.record (PathTree.membersWith (fun leaf => .text (Row.aligned (nameLists leaf) 1))
      (PathTree.build nameFields)))) = "\x7b\"name\":\x7b\"first\":\"Alan\",\"last\":\"-\"\x7d\x7d" := by
    decide +kernel
  refine ⟨plain, found, several.trans ?_⟩
  rw [positions, ← first, ← second]
  rfl

end ProfileConnector
