import ProfileConnector.Proofs.PathTree
import ProfileConnector.Proofs.Plan.Subtree
import ProfileConnector.Proofs.Types.Words

/-!
Plans of entities over types that are named by words. Such a plan shows no name that is not a word, and
it consists of the constructions for entities alone.
-/

namespace ProfileConnector

namespace Plan

/-- The plan makes entities, and the types that it names are named by words. -/
inductive Worded : Plan → Prop
  | absent : Worded .absent
  | single (read : LeafRead) : Worded (.single read)
  | many (read : LeafRead) : Worded (.many read)
  | filled (read : LeafRead) : Worded (.filled read)
  | element : Worded .element
  | elementList : Worded .elementList
  | picked (slot : Nat) : Worded (.picked slot)
  | pickedList (slot : Nat) : Worded (.pickedList slot)
  | converted (descriptor : Descriptor) {value : Plan} (inner : Worded value) : Worded (.converted descriptor value)
  | record {entries : List (String × Plan)} (each : ∀ key value, (key, value) ∈ entries → Worded value) :
      Worded (.record entries)
  | typed {names : DisplayNames} {entries : List (PropertyInfo × Plan)} (words : names.Words)
      (each : ∀ property value, (property, value) ∈ entries → Worded value) : Worded (.typed names entries)
  | serialized {value : Plan} (inner : Worded value) : Worded (.serialized value)
  | mapped (read : LeafRead) {element : DisplayNames} (absentIfEmpty : Bool) {body : Plan} (words : element.Words)
      (inner : Worded body) : Worded (.mapped read element absentIfEmpty body)
  | broadcast (reads : List (Nat × LeafRead)) {element : DisplayNames} (absentIfEmpty : Bool) {body : Plan}
      (words : element.Words) (inner : Worded body) : Worded (.broadcast reads element absentIfEmpty body)
  | eachEntry (root : String) {body : Plan} (inner : Worded body) : Worded (.eachEntry root body)

end Plan

def TypeMap.Words (types : TypeMap) : Prop := ∀ name info, KeyedList.get? name types = some info → info.Words

namespace EntityContext

variable {context : EntityContext}

theorem worded_single (reader : LeafReader) (leaf : LeafLimits) (mapping : FieldMapping) :
    (reader.single leaf mapping).Worded := by
  cases reader <;> constructor

theorem worded_many (reader : LeafReader) (leaf : LeafLimits) (mapping : FieldMapping) :
    (reader.many leaf mapping).Worded := by
  cases reader <;> constructor

theorem worded_untypedEntries (reader : LeafReader) (tree : PathTree.Branches) :
    ∀ key value, (key, value) ∈ context.untypedEntries reader tree → value.Worded := by
  induction tree using PathTree.branches_induction with
  | nil => simp [untypedEntries]
  | leaf key mapping rest others =>
    intro other value member
    rw [untypedEntries, untyped] at member
    rcases List.mem_cons.mp member with same | later
    · cases same
      exact worded_single reader context.leaf mapping
    · exact others other value later
  | node key children rest below others =>
    intro other value member
    rw [untypedEntries, untyped] at member
    rcases List.mem_cons.mp member with same | later
    · cases same
      exact .record below
    · exact others other value later

theorem worded_leafMember (reader : LeafReader) (property : PropertyInfo) (mapping : FieldMapping) :
    (context.leafMember reader property mapping).Worded := by
  unfold leafMember
  simp only
  split
  · exact worded_many reader _ _
  · exact .converted _ (worded_single reader _ _)

theorem worded_node (types : context.types.Words) {property : PropertyInfo}
    (element : property.descriptor.element.names.Words) {children : PathTree.Branches}
    (below : ∀ (info : TypeInfo), info.Words → ∀ (reader : LeafReader) (next : Nat) (member : PropertyInfo) (value : Plan),
      (member, value) ∈ (context.typedEntries info reader next children).1 → value.Worded)
    (reader : LeafReader) (next : Nat) : (context.typedMember property reader next (.node children)).1.Worded := by
  have record (reader : LeafReader) (next : Nat) : (context.recordBelow property reader next children).1.Worded := by
    unfold recordBelow
    split
    · exact .record (worded_untypedEntries reader children)
    · rename_i info known
      obtain ⟨name, found⟩ := get?_of_nestedInfo? known
      have words := types name info found
      exact .typed words.names (below info words reader next)
  have names : (context.elementNames property).Words := by
    unfold elementNames
    split
    · rename_i info known
      obtain ⟨name, found⟩ := get?_of_nestedInfo? known
      exact (types name info found).names
    · exact element
  rcases context.typedMember_node property reader next children with ⟨_, same⟩ | ⟨_, same⟩ | ⟨_, _, same⟩ |
    ⟨_, _, same⟩ | ⟨block, body, rfl, rfl, same⟩ <;> rw [same]
  · exact record reader next
  · exact .absent
  · exact .filled _
  · exact .mapped _ _ names (record _ _)
  · exact .broadcast _ _ names (record _ _)

theorem worded_typedEntries (types : context.types.Words) (tree : PathTree.Branches) {info : TypeInfo}
    (words : info.Words) (reader : LeafReader) (next : Nat) (member : PropertyInfo) (value : Plan)
    (listed : (member, value) ∈ (context.typedEntries info reader next tree).1) : value.Worded := by
  induction tree using PathTree.branches_induction generalizing info reader next member value with
  | nil => simp [typedEntries] at listed
  | leaf key mapping rest others =>
    rw [typedEntries] at listed
    split at listed
    · exact others words reader next member value listed
    · rcases List.mem_cons.mp listed with same | later
      · cases same
        exact worded_leafMember reader _ mapping
      · exact others words reader _ member value later
  | node key children rest below others =>
    rw [typedEntries] at listed
    split at listed
    · exact others words reader next member value listed
    · rename_i property owned
      rcases List.mem_cons.mp listed with same | later
      · cases same
        exact worded_node types (words.elements key _ owned)
          (fun info words reader next member value => below words reader next member value) reader next
      · exact others words reader _ member value later

theorem worded_object (types : context.types.Words) {info : Option TypeInfo}
    (words : ∀ known, info = some known → known.Words) (reader : LeafReader) (next : Nat) (tree : PathTree.Branches) :
    (context.object info reader next tree).Worded := by
  cases info with
  | none => exact .record (worded_untypedEntries reader tree)
  | some info =>
    have own := words info rfl
    exact .typed own.names (worded_typedEntries types tree own reader next)

theorem worded_entity (types : context.types.Words) {info : Option TypeInfo}
    (words : ∀ known, info = some known → known.Words) (fields : List FieldMapping) :
    (context.entity info fields).Worded := by
  unfold entity
  simp only
  split
  · exact .absent
  · exact .serialized (worded_object types words _ _ _)

theorem worded_entityCollection (types : context.types.Words) {info : Option TypeInfo}
    (words : ∀ known, info = some known → known.Words) (format : InputFormat) (fields : List FieldMapping) :
    (context.entityCollection format info fields).Worded := by
  have text : textElement.Words := ⟨by decide, by decide⟩
  unfold entityCollection
  simp only
  split
  · exact .eachEntry _ (.serialized (worded_object types words _ _ _))
  · unfold zipped
    split
    · exact .absent
    · exact .mapped _ _ text (.serialized (worded_object types words _ _ _))
    · exact .broadcast _ _ text (.serialized (worded_object types words _ _ _))

end EntityContext

end ProfileConnector
