import ProfileConnector.Plan.Property
import ProfileConnector.Proofs.Plan.Slots

/-!
Initializers of plans. Every value of a known type is made by an initializer; a node of a path tree has no
key twice, so an initializer has no property twice, and each of them is a property of the type.
-/

namespace ProfileConnector

namespace Plan

mutual

/-- The initializers of a plan, at any depth: the names of a type, and the properties that are given a value. -/
def initializers : Plan → List (DisplayNames × List PropertyInfo)
  | .converted _ value => initializers value
  | .record entries => entryInitializers entries
  | .typed names members => (names, members.map Prod.fst) :: memberInitializers members
  | .serialized value => initializers value
  | .mapped _ _ _ body => initializers body
  | .broadcast _ _ _ body => initializers body
  | .eachEntry _ body => initializers body
  | .principal members => entryInitializers members
  | .defaulted _ _ value => initializers value
  | .validated _ value => initializers value
  | _ => []

def entryInitializers : List (String × Plan) → List (DisplayNames × List PropertyInfo)
  | [] => []
  | (_, value) :: rest => initializers value ++ entryInitializers rest

def memberInitializers : List (PropertyInfo × Plan) → List (DisplayNames × List PropertyInfo)
  | [] => []
  | (_, value) :: rest => initializers value ++ memberInitializers rest

end

end Plan

def TypeInfo.Keyed (info : TypeInfo) : Prop :=
  ∀ key property, info.property? key = some property → property.name = key

/-- The initializer is for the type, and gives no property a value twice. -/
structure TypeInfo.Initialized (info : TypeInfo) (entry : DisplayNames × List PropertyInfo) : Prop where
  names : entry.1 = info.names
  owned : ∀ property ∈ entry.2, info.property? property.name = some property
  distinct : (entry.2.map (·.name)).Nodup

namespace TypeMap

def Keyed (types : TypeMap) : Prop := ∀ name info, KeyedList.get? name types = some info → info.Keyed

def Initialized (types : TypeMap) (entries : List (DisplayNames × List PropertyInfo)) : Prop :=
  ∀ entry ∈ entries, ∃ name info, KeyedList.get? name types = some info ∧ info.Initialized entry

variable {types : TypeMap}

theorem Initialized.nil : types.Initialized [] := fun _ member => nomatch member

theorem Initialized.append {first second : List (DisplayNames × List PropertyInfo)} (front : types.Initialized first)
    (back : types.Initialized second) : types.Initialized (first ++ second) :=
  fun entry member => (List.mem_append.mp member).elim (front entry) (back entry)

end TypeMap

namespace EntityContext

variable {context : EntityContext}

theorem initializers_single (reader : LeafReader) (leaf : LeafLimits) (mapping : FieldMapping) :
    (reader.single leaf mapping).initializers = [] := by
  cases reader <;> rfl

theorem initializers_many (reader : LeafReader) (leaf : LeafLimits) (mapping : FieldMapping) :
    (reader.many leaf mapping).initializers = [] := by
  cases reader <;> rfl

theorem initializers_leafMember (reader : LeafReader) (property : PropertyInfo) (mapping : FieldMapping) :
    (context.leafMember reader property mapping).initializers = [] := by
  unfold leafMember
  simp only
  split
  · exact initializers_many reader _ _
  · exact initializers_single reader _ _

theorem initializers_untypedEntries (reader : LeafReader) (tree : PathTree.Branches) :
    Plan.entryInitializers (context.untypedEntries reader tree) = [] := by
  induction tree using PathTree.branches_induction with
  | nil => rfl
  | leaf key mapping rest others =>
    rw [untypedEntries, untyped, Plan.entryInitializers, initializers_single, others]
    rfl
  | node key children rest below others =>
    rw [untypedEntries, untyped, Plan.entryInitializers, Plan.initializers, below, others]
    rfl

theorem properties_typedEntries (info : TypeInfo) (reader : LeafReader) (next : Nat) (tree : PathTree.Branches) :
    (context.typedEntries info reader next tree).1.map Prod.fst = tree.filterMap fun branch => info.property? branch.1 := by
  induction tree generalizing next with
  | nil => rfl
  | cons branch rest ih =>
    obtain ⟨key, child⟩ := branch
    rw [typedEntries, List.filterMap_cons]
    cases info.property? key with
    | none => exact ih next
    | some property => simp [ih]

theorem initialized_properties {info : TypeInfo} (keyed : info.Keyed) {tree : PathTree.Branches}
    (distinct : (KeyedList.keys tree).Nodup) :
    info.Initialized (info.names, tree.filterMap fun branch => info.property? branch.1) := by
  have named : (tree.filterMap fun branch => info.property? branch.1).map (·.name) =
      (KeyedList.keys tree).filter fun key => (info.property? key).isSome := by
    clear distinct
    induction tree with
    | nil => rfl
    | cons branch rest ih =>
      rw [KeyedList.keys, List.map_cons, List.filter_cons, List.filterMap_cons]
      cases owned : info.property? branch.1 with
      | none => exact ih
      | some property => simp [ih, keyed branch.1 property owned, KeyedList.keys]
  refine ⟨rfl, fun property listed => ?_, named ▸ distinct.filter _⟩
  obtain ⟨branch, _, owned⟩ := List.mem_filterMap.mp listed
  rwa [keyed branch.1 property owned]

theorem initialized_typedMember (keyed : context.types.Keyed) {property : PropertyInfo} {path : List String}
    {children : PathTree.Branches} (tidy : PathTree.Tidy path children)
    (below : ∀ info : TypeInfo, info.Keyed → ∀ (reader : LeafReader) (next : Nat),
      context.types.Initialized (Plan.memberInitializers (context.typedEntries info reader next children).1))
    (reader : LeafReader) (next : Nat) :
    context.types.Initialized (context.typedMember property reader next (.node children)).1.initializers := by
  have record (reader : LeafReader) (next : Nat) :
      context.types.Initialized (context.recordBelow property reader next children).1.initializers := by
    unfold recordBelow
    split
    · rw [Plan.initializers, initializers_untypedEntries]
      exact .nil
    · rename_i info known
      obtain ⟨name, found⟩ := get?_of_nestedInfo? known
      rw [Plan.initializers, properties_typedEntries]
      refine List.forall_mem_cons.mpr ⟨⟨name, info, found, initialized_properties (keyed _ _ found) tidy.distinct⟩, ?_⟩
      exact below info (keyed _ _ found) reader next
  rcases context.typedMember_node property reader next children with ⟨_, same⟩ | ⟨_, same⟩ | ⟨_, _, same⟩ |
    ⟨_, _, same⟩ | ⟨block, body, rfl, rfl, same⟩ <;> rw [same]
  · exact record reader next
  · exact .nil
  · exact .nil
  · exact record _ next
  · exact record _ _

theorem initialized_typedEntries (keyed : context.types.Keyed) {path : List String} {tree : PathTree.Branches}
    (tidy : PathTree.Tidy path tree) {info : TypeInfo} (own : info.Keyed) (reader : LeafReader) (next : Nat) :
    context.types.Initialized (Plan.memberInitializers (context.typedEntries info reader next tree).1) := by
  induction tree using PathTree.branches_induction generalizing path info reader next with
  | nil => exact .nil
  | leaf key mapping rest others =>
    rw [typedEntries]
    split
    · exact others tidy.tail own reader next
    · rw [Plan.memberInitializers, typedMember, initializers_leafMember]
      exact others tidy.tail own reader next
  | node key children rest below others =>
    rw [typedEntries]
    split
    · exact others tidy.tail own reader next
    · have inner := tidy.child List.mem_cons_self
      exact (initialized_typedMember keyed inner (fun info own reader next => below inner own reader next) reader
        next).append (others tidy.tail own reader _)

theorem initialized_object (keyed : context.types.Keyed) {info : Option TypeInfo}
    (known : ∀ type ∈ info, ∃ name, KeyedList.get? name context.types = some type) (reader : LeafReader) (next : Nat)
    (fields : List FieldMapping) :
    context.types.Initialized (context.object info reader next (PathTree.build fields)).initializers := by
  have tidy := PathTree.tidy_build fields
  cases info with
  | none =>
    rw [object, Plan.initializers, initializers_untypedEntries]
    exact .nil
  | some type =>
    obtain ⟨name, found⟩ := known type rfl
    rw [object, Plan.initializers, properties_typedEntries]
    exact List.forall_mem_cons.mpr ⟨⟨name, type, found, initialized_properties (keyed _ _ found) tidy.distinct⟩,
      initialized_typedEntries keyed tidy (keyed _ _ found) reader next⟩

theorem initialized_entity (keyed : context.types.Keyed) {info : Option TypeInfo}
    (known : ∀ type ∈ info, ∃ name, KeyedList.get? name context.types = some type) (fields : List FieldMapping) :
    context.types.Initialized (context.entity info fields).initializers := by
  unfold entity
  simp only
  split
  · exact .nil
  · exact initialized_object keyed known _ _ fields

theorem initialized_entityCollection (keyed : context.types.Keyed) {info : Option TypeInfo}
    (known : ∀ type ∈ info, ∃ name, KeyedList.get? name context.types = some type) (format : InputFormat)
    (fields : List FieldMapping) : context.types.Initialized (context.entityCollection format info fields).initializers := by
  unfold entityCollection
  simp only
  split
  · exact initialized_object keyed known _ _ fields
  · unfold zipped
    split
    · exact .nil
    · exact initialized_object keyed known _ _ fields
    · exact initialized_object keyed known _ _ fields

end EntityContext

namespace Plan

theorem entryInitializers_eq_nil {entries : List (String × Plan)}
    (bare : ∀ entry ∈ entries, entry.2.initializers = []) : entryInitializers entries = [] := by
  induction entries with
  | nil => rfl
  | cons entry rest ih =>
    obtain ⟨own, others⟩ := List.forall_mem_cons.mp bare
    rw [entryInitializers, own, ih others]
    rfl

theorem initializers_ofPrincipal (fields : Option (List FieldMapping)) (fallback : Source) :
    (ofPrincipal fields fallback).initializers = [] := by
  refine entryInitializers_eq_nil fun entry member => ?_
  obtain ⟨_, _, rfl⟩ := List.mem_map.mp member
  rfl

theorem initializers_ofPrincipals (fields : Option (List FieldMapping)) (fallback : Source) :
    (ofPrincipals fields fallback).initializers = [] := by
  unfold ofPrincipals
  split
  · rfl
  · refine entryInitializers_eq_nil fun entry member => ?_
    obtain ⟨_, _, rfl⟩ := List.mem_mapIdx.mp member
    rfl

theorem initializers_ofValue (property : Property) : (ofValue property).initializers = [] := by
  unfold ofValue
  simp only
  repeat' split
  all_goals rfl

end Plan

theorem Bundle.exists_of_infoFor? {bundle : Bundle} {entity : String} {info : TypeInfo}
    (found : bundle.infoFor? entity = some info) : ∃ name, KeyedList.get? name bundle.typeMap = some info := by
  unfold infoFor? at found
  split at found
  · cases found
    exact ⟨entity, ‹_›⟩
  · exact ⟨_, found⟩

theorem PlanContext.initialized_ofProperty {bundle : Bundle} (keyed : bundle.typeMap.Keyed) (format : InputFormat)
    (property : Property) :
    bundle.typeMap.Initialized ((⟨some bundle, format⟩ : PlanContext).ofProperty property).plan.initializers := by
  have entities (mapping : EntityMapping) : bundle.typeMap.Initialized
      ((⟨some bundle, format⟩ : PlanContext).ofEntity property mapping).plan.initializers := by
    have known : ∀ type ∈ bundle.infoFor? mapping.entity, ∃ name, KeyedList.get? name bundle.typeMap = some type :=
      fun type found => Bundle.exists_of_infoFor? found
    simp only [ofEntity, infoFor?, typeMap, Option.bind_some, Option.map_some, Option.getD_some]
    split
    · exact @EntityContext.initialized_entityCollection ⟨bundle.typeMap, _⟩ keyed _ known format _
    · exact @EntityContext.initialized_entity ⟨bundle.typeMap, _⟩ keyed _ known _
  unfold ofProperty
  simp only
  split
  · exact .nil
  · split
    · exact .nil
    · split
      · rw [Plan.initializers_ofPrincipal]
        exact .nil
      · rw [Plan.initializers_ofPrincipals]
        exact .nil
      · exact entities _
      · rw [Plan.initializers_ofValue]
        exact .nil

end ProfileConnector
