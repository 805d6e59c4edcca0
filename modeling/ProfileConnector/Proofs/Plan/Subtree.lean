import ProfileConnector.Plan.Entity

/-!
Subtrees under properties. What a property makes of a subtree is one of five plans, and whatever stands in
there for the subtree itself is the same record, filled by different readers. Facts about all plans of
entities are proved for the record first, and then for the five plans.
-/

namespace ProfileConnector.EntityContext

theorem get?_of_nestedInfo? {context : EntityContext} {property : PropertyInfo} {info : TypeInfo}
    (nested : context.nestedInfo? property = some info) :
    ∃ name, KeyedList.get? name context.types = some info := by
  unfold nestedInfo? at nested
  simp only [Option.ite_none_right_eq_some] at nested
  exact ⟨_, nested.2⟩

def recordBelow (context : EntityContext) (property : PropertyInfo) (reader : LeafReader) (next : Nat)
    (children : PathTree.Branches) : Plan × Nat :=
  match context.nestedInfo? property with
  | none => (.record (context.untypedEntries reader children), next)
  | some info =>
    (.typed info.names (context.typedEntries info reader next children).1,
      (context.typedEntries info reader next children).2)

def elementNames (context : EntityContext) (property : PropertyInfo) : DisplayNames :=
  match context.nestedInfo? property with
  | some info => info.names
  | none => property.descriptor.element.names

/--
What becomes of a subtree: a record, and under a collection property nothing, a list of texts, a map of one
leaf or a block of several.
-/
theorem typedMember_node (context : EntityContext) (property : PropertyInfo) (reader : LeafReader) (next : Nat)
    (children : PathTree.Branches) :
    (property.descriptor.isCollection = false ∧
      context.typedMember property reader next (.node children) = context.recordBelow property reader next children) ∨
    (PathTree.leavesOf children = [] ∧ context.typedMember property reader next (.node children) = (.absent, next)) ∨
    (∃ mapping, (PathTree.leavesOf children).head? = some mapping ∧
      context.typedMember property reader next (.node children) = (.filled (context.leaf.read mapping.source), next)) ∨
    (∃ mapping, PathTree.leavesOf children = [mapping] ∧
      context.typedMember property reader next (.node children) =
        (.mapped (context.leaf.read mapping.source) (context.elementNames property) true
          (context.recordBelow property .fromElement next children).1,
          (context.recordBelow property .fromElement next children).2)) ∨
    ∃ block body, block = SlotReads.allocate context.leaf next (PathTree.leavesOf children) ∧
      body = context.recordBelow property (.fromSlots block.slots) (next + (PathTree.leavesOf children).length)
        children ∧
      context.typedMember property reader next (.node children) =
        (.broadcast block.reads (context.elementNames property) true body.1, body.2) := by
  rw [typedMember]
  simp only
  split
  · rename_i single
    exact .inl ⟨by simpa using single, rfl⟩
  · split
    · rename_i leaves
      exact .inr (.inl ⟨leaves, rfl⟩)
    · rename_i mapping leaves
      split
      · exact .inr (.inr (.inl ⟨mapping, by rw [leaves]; rfl, rfl⟩))
      · exact .inr (.inr (.inr (.inl ⟨mapping, leaves, rfl⟩)))
    · rename_i mapping others _ leaves
      split
      · exact .inr (.inr (.inl ⟨mapping, by rw [leaves]; rfl, rfl⟩))
      · refine .inr (.inr (.inr (.inr ⟨_, _, rfl, rfl, ?_⟩)))
        rw [leaves]
        rfl

end ProfileConnector.EntityContext
