import ProfileConnector.Plan.Basic

/-!
Plans of entities. The path tree of an entity becomes a record; where its type is known the keys that
are no properties of the type are dropped, leaves are made into values of the property types and
subtrees of collection properties become blocks of their own.
-/

namespace ProfileConnector

inductive LeafReader where
  | fromRow
  | fromElement
  | fromSlots (slots : KeyedList String Nat)
  | fromEntry (relatives : KeyedList String String)
  deriving DecidableEq, Repr

structure EntityContext where
  types : TypeMap
  leaf : LeafLimits

namespace LeafReader

def slot? (slots : KeyedList String Nat) (mapping : FieldMapping) : Option Nat :=
  KeyedList.get? mapping.path slots

def relative? (relatives : KeyedList String String) (mapping : FieldMapping) : Option String :=
  KeyedList.get? mapping.path relatives

def single (leaf : LeafLimits) (mapping : FieldMapping) : LeafReader → Plan
  | .fromRow => .single (leaf.read mapping.source)
  | .fromElement => .element
  | .fromSlots slots => .picked ((slot? slots mapping).getD 0)
  | .fromEntry relatives =>
    .single (leaf.readEntry ((relative? relatives mapping).getD "") mapping.source.fallback)

def many (leaf : LeafLimits) (mapping : FieldMapping) : LeafReader → Plan
  | .fromRow => .many (leaf.read mapping.source)
  | .fromElement => .elementList
  | .fromSlots slots => .pickedList ((slot? slots mapping).getD 0)
  | .fromEntry relatives =>
    .many (leaf.readEntry ((relative? relatives mapping).getD "") mapping.source.fallback)

end LeafReader

/-- The first slot that is free, and the slots of some leaves by raw path. -/
structure SlotReads where
  reads : List (Nat × LeafRead)
  slots : KeyedList String Nat

namespace SlotReads

def allocate (leaf : LeafLimits) (next : Nat) (leaves : List FieldMapping) : SlotReads where
  reads := leaves.mapIdx fun i mapping => (next + i, leaf.read mapping.source)
  slots := KeyedList.ofPairs (leaves.mapIdx fun i mapping => (mapping.path, next + i))

end SlotReads

namespace EntityContext

def nestedInfo? (context : EntityContext) (property : PropertyInfo) : Option TypeInfo :=
  let ref := property.descriptor.element.ref
  if ref.isComposite then KeyedList.get? ref.name context.types else none

mutual

def untyped (context : EntityContext) (reader : LeafReader) : PathTree → Plan
  | .leaf mapping => reader.single context.leaf mapping
  | .node children => .record (untypedEntries context reader children)

def untypedEntries (context : EntityContext) (reader : LeafReader) :
    List (String × PathTree) → List (String × Plan)
  | [] => []
  | (key, child) :: rest => (key, untyped context reader child) :: untypedEntries context reader rest

end

def leafMember (context : EntityContext) (reader : LeafReader) (property : PropertyInfo)
    (mapping : FieldMapping) : Plan :=
  let descriptor := property.descriptor
  if descriptor.isCollection && descriptor.element.ref.isString then reader.many context.leaf mapping
  else .converted descriptor (reader.single context.leaf mapping)

mutual

def typedEntries (context : EntityContext) (info : TypeInfo) (reader : LeafReader) (next : Nat) :
    List (String × PathTree) → List (PropertyInfo × Plan) × Nat
  | [] => ([], next)
  | (key, child) :: rest =>
    match info.property? key with
    | none => typedEntries context info reader next rest
    | some property =>
      let (plan, next) := typedMember context property reader next child
      let (others, next) := typedEntries context info reader next rest
      ((property, plan) :: others, next)

def typedMember (context : EntityContext) (property : PropertyInfo) (reader : LeafReader) (next : Nat) :
    PathTree → Plan × Nat
  | .leaf mapping => (context.leafMember reader property mapping, next)
  | .node children =>
    let info := context.nestedInfo? property
    let names := match info with
      | some info => info.names
      | none => property.descriptor.element.names
    let object (reader : LeafReader) (next : Nat) : Plan × Nat :=
      match info with
      | none => (.record (untypedEntries context reader children), next)
      | some info =>
        let (entries, next) := typedEntries context info reader next children
        (.typed info.names entries, next)
    if !property.descriptor.isCollection then object reader next
    else match PathTree.leavesOf children with
      | [] => (.absent, next)
      | [mapping] =>
        if info.isNone && property.descriptor.element.ref.isString then
          (.filled (context.leaf.read mapping.source), next)
        else
          let (body, next) := object .fromElement next
          (.mapped (context.leaf.read mapping.source) names true body, next)
      | mapping :: others =>
        if info.isNone && property.descriptor.element.ref.isString then
          (.filled (context.leaf.read mapping.source), next)
        else
          let slots := SlotReads.allocate context.leaf next (mapping :: others)
          let (body, next) := object (.fromSlots slots.slots) (next + others.length + 1)
          (.broadcast slots.reads names true body, next)

end

def object (context : EntityContext) (info : Option TypeInfo) (reader : LeafReader) (next : Nat)
    (tree : PathTree.Branches) : Plan :=
  match info with
  | none => .record (context.untypedEntries reader tree)
  | some info => .typed info.names (context.typedEntries info reader next tree).1

def entity (context : EntityContext) (info : Option TypeInfo) (fields : List FieldMapping) : Plan :=
  let tree := PathTree.build fields
  if (PathTree.leavesOf tree).isEmpty then .absent
  else .serialized (context.object info .fromRow 0 tree)

def textElement : DisplayNames := ⟨"string", "string", "string"⟩

/-- One serialized entity for every raw value, or for every position of several leaves. -/
def zipped (context : EntityContext) (info : Option TypeInfo) (tree : PathTree.Branches) : Plan :=
  match PathTree.leavesOf tree with
  | [] => .absent
  | [mapping] =>
    .mapped (context.leaf.read mapping.source) textElement false
      (.serialized (context.object info .fromElement 0 tree))
  | leaves =>
    let slots := SlotReads.allocate context.leaf 0 leaves
    .broadcast slots.reads textElement false
      (.serialized (context.object info (.fromSlots slots.slots) leaves.length tree))

/--
A list of serialized entities. In documents whose leaves all run through one array there is one for
every entry of the array.
-/
def entityCollection (context : EntityContext) (format : InputFormat) (info : Option TypeInfo)
    (fields : List FieldMapping) : Plan :=
  let tree := PathTree.build fields
  match if format.isRow then none else ArrayRoot.common? (PathTree.leavesOf tree) with
  | some shared =>
    .eachEntry shared.root (.serialized (context.object info (.fromEntry shared.relatives) 0 tree))
  | none => context.zipped info tree

end EntityContext

end ProfileConnector
