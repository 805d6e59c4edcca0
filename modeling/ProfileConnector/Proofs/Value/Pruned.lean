import ProfileConnector.Value.Printer

/-!
Pruned values. What is left of a value has no record with a null member, at any depth; lists keep all of
their items, and records the other members in their order. So exactly the values without null members are
left as they are.
-/

namespace ProfileConnector.Value

/-! ## Parts of values -/

theorem induct {motive : Value → Prop} (null : motive .null) (bool : ∀ b, motive (.bool b)) (int : ∀ n, motive (.int n))
    (float : ∀ x, motive (.float x)) (text : ∀ t, motive (.text t))
    (list : ∀ items, (∀ item ∈ items, motive item) → motive (.list items))
    (record : ∀ members, (∀ member ∈ members, motive member.2) → motive (.record members)) (value : Value) :
    motive value := by
  match value with
  | .null => exact null
  | .bool b => exact bool b
  | .int n => exact int n
  | .float x => exact float x
  | .text t => exact text t
  | .list items =>
    refine list items fun item inside => ?_
    have smaller : sizeOf item < sizeOf (Value.list items) := by
      have within := List.sizeOf_lt_of_mem inside
      rw [Value.list.sizeOf_spec]
      omega
    exact induct null bool int float text list record item
  | .record members =>
    refine record members fun (key, member) inside => ?_
    have smaller : sizeOf member < sizeOf (Value.record members) := by
      have within := List.sizeOf_lt_of_mem inside
      rw [Prod.mk.sizeOf_spec] at within
      rw [Value.record.sizeOf_spec]
      omega
    exact induct null bool int float text list record member
termination_by value
decreasing_by all_goals exact smaller

inductive Part (inner : Value) : Value → Prop
  | self : Part inner inner
  | item {item : Value} {items : List Value} (inside : item ∈ items) (part : Part inner item) : Part inner (.list items)
  | member {member : Text × Value} {members : List (Text × Value)} (inside : member ∈ members)
      (part : Part inner member.2) : Part inner (.record members)

/-- No record at any depth has a null member. -/
def NullFree (value : Value) : Prop :=
  ∀ members, Part (.record members) value → ∀ member ∈ members, member.2 ≠ .null

theorem nullFree_list {items : List Value} : NullFree (.list items) ↔ ∀ item ∈ items, NullFree item := by
  constructor
  · exact fun free item inside members part => free members (.item inside part)
  · rintro each members (_ | ⟨inside, part⟩)
    exact each _ inside members part

theorem nullFree_record {members : List (Text × Value)} :
    NullFree (.record members) ↔ ∀ member ∈ members, member.2 ≠ .null ∧ NullFree member.2 := by
  constructor
  · intro free member inside
    exact ⟨free members .self member inside, fun others part => free others (.member inside part)⟩
  · rintro each others (_ | _ | ⟨inside, part⟩)
    · exact fun member inside => (each member inside).1
    · exact (each _ inside).2 others part

/-! ## What is left -/

def isNull : Value → Bool
  | .null => true
  | _ => false

theorem isNull_iff {value : Value} : value.isNull = true ↔ value = .null := by
  cases value <;> simp [isNull]

theorem pruned_list (items : List Value) : pruned (.list items) = .list (items.map pruned) := by
  rw [pruned]
  refine congrArg Value.list ?_
  induction items with
  | nil => rfl
  | cons item items ih => rw [prunedItems, ih, List.map_cons]

theorem pruned_record (members : List (Text × Value)) : pruned (.record members) =
    .record ((members.filter fun member => !member.2.isNull).map fun member => (member.1, member.2.pruned)) := by
  rw [pruned]
  refine congrArg Value.record ?_
  induction members with
  | nil => rfl
  | cons member members ih =>
    obtain ⟨key, value⟩ := member
    cases value <;> simp [prunedMembers, isNull, ih]

theorem isNull_pruned (value : Value) : value.pruned.isNull = value.isNull := by
  cases value <;> rfl

theorem nullFree_pruned (value : Value) : NullFree value.pruned := by
  induction value using induct with
  | list items ih =>
    rw [pruned_list, nullFree_list]
    exact List.forall_mem_map.mpr ih
  | record members ih =>
    rw [pruned_record, nullFree_record]
    refine List.forall_mem_map.mpr fun member kept => ?_
    obtain ⟨inside, some⟩ := List.mem_filter.mp kept
    refine ⟨fun absent => ?_, ih member inside⟩
    rw [← isNull_iff, isNull_pruned] at absent
    simp [absent] at some
  | _ => rintro _ (_ | _)

theorem pruned_eq_self_iff {value : Value} : value.pruned = value ↔ NullFree value := by
  constructor
  · exact fun same => same ▸ nullFree_pruned value
  · intro free
    induction value using induct with
    | list items ih =>
      rw [nullFree_list] at free
      have same : items.map pruned = items.map id := List.map_congr_left fun item inside => ih item inside (free item inside)
      rw [pruned_list, same, List.map_id]
    | record members ih =>
      rw [nullFree_record] at free
      have kept : (members.filter fun member => !member.2.isNull) = members :=
        List.filter_eq_self.mpr fun member inside => by simpa [← isNull_iff] using (free member inside).1
      have same : (members.map fun member => (member.1, member.2.pruned)) = members.map id :=
        List.map_congr_left fun member inside => by rw [ih member inside (free member inside).2, id]
      rw [pruned_record, kept, same, List.map_id]
    | _ => rfl

theorem pruned_pruned (value : Value) : value.pruned.pruned = value.pruned :=
  pruned_eq_self_iff.mpr (nullFree_pruned value)

end ProfileConnector.Value
