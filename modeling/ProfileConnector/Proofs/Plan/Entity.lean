import ProfileConnector.Plan.Entity
import ProfileConnector.Proofs.PathTree

/-!
Which leaves of a tree find their way into a record of known type. A key that is no property of the
type at hand is left out together with all leaves below it; so the record has a value for every leaf
just if every key is a property of the type that its node is written with.
-/

namespace ProfileConnector

/-! ## Values of a record -/

namespace Plan

mutual

/-- The plans of the single values in a record and the records within it, in order. -/
def values : Plan → List Plan
  | .record entries => entryValues entries
  | .typed _ entries => memberValues entries
  | .converted _ value => values value
  | plan => [plan]

def entryValues : List (String × Plan) → List Plan
  | [] => []
  | (_, value) :: rest => values value ++ entryValues rest

def memberValues : List (PropertyInfo × Plan) → List Plan
  | [] => []
  | (_, value) :: rest => values value ++ memberValues rest

end

end Plan

namespace LeafReader

theorem values_single (leaf : LeafLimits) (mapping : FieldMapping) (reader : LeafReader) :
    (reader.single leaf mapping).values = [reader.single leaf mapping] := by
  cases reader <;> simp [single, Plan.values]

end LeafReader

namespace EntityContext

variable {context : EntityContext} {info : TypeInfo} {reader : LeafReader}

theorem values_untypedEntries (context : EntityContext) (reader : LeafReader) (branches : PathTree.Branches) :
    Plan.entryValues (context.untypedEntries reader branches) =
      (PathTree.leavesOf branches).map (reader.single context.leaf) := by
  induction branches using PathTree.branches_induction with
  | nil => simp [untypedEntries, Plan.entryValues, PathTree.leavesOf]
  | leaf key mapping rest others =>
    simp [untypedEntries, untyped, Plan.entryValues, LeafReader.values_single, PathTree.leavesOf, PathTree.leaves, others]
  | node key children rest below others =>
    simp [untypedEntries, untyped, Plan.entryValues, Plan.values, PathTree.leavesOf, PathTree.leaves, below, others]

/-! ## Entries of a record -/

theorem typedEntries_append (context : EntityContext) (info : TypeInfo) (reader : LeafReader) (next : Nat)
    (first second : PathTree.Branches) :
    context.typedEntries info reader next (first ++ second) =
      ((context.typedEntries info reader next first).1 ++
        (context.typedEntries info reader (context.typedEntries info reader next first).2 second).1,
        (context.typedEntries info reader (context.typedEntries info reader next first).2 second).2) := by
  induction first generalizing next with
  | nil => simp only [typedEntries, List.nil_append]
  | cons entry rest ih =>
    obtain ⟨key, child⟩ := entry
    rw [List.cons_append, typedEntries, typedEntries]
    cases info.property? key with
    | none => exact ih next
    | some property => simp only [ih, List.cons_append]

theorem typedEntries_foreign {tree : PathTree.Branches}
    (foreign : ∀ key ∈ KeyedList.keys tree, info.property? key = none) (reader : LeafReader) (next : Nat) :
    context.typedEntries info reader next tree = ([], next) := by
  induction tree with
  | nil => rw [typedEntries]
  | cons entry rest ih =>
    obtain ⟨key, child⟩ := entry
    rw [typedEntries, foreign key List.mem_cons_self]
    exact ih fun other listed => foreign other (List.mem_cons_of_mem key listed)

/-! ## Kept leaves -/

mutual

/-- The leaves whose keys are all properties of the types at hand. -/
def kept (context : EntityContext) (info : TypeInfo) : List (String × PathTree) → List FieldMapping
  | [] => []
  | (key, child) :: rest =>
    match info.property? key with
    | none => kept context info rest
    | some property => keptBelow context property child ++ kept context info rest

def keptBelow (context : EntityContext) (property : PropertyInfo) : PathTree → List FieldMapping
  | .leaf mapping => [mapping]
  | .node children =>
    match context.nestedInfo? property with
    | none => PathTree.leavesOf children
    | some info => kept context info children

end

/-- The nodes of a tree that are written with the properties of a type, and that type. -/
inductive Renders (context : EntityContext) : TypeInfo → PathTree.Branches → TypeInfo → PathTree.Branches → Prop
  | here {info : TypeInfo} {tree : PathTree.Branches} : Renders context info tree info tree
  | under {info next last : TypeInfo} {tree children node : PathTree.Branches} {key : String}
      {property : PropertyInfo} (member : (key, .node children) ∈ tree) (owned : info.property? key = some property)
      (nested : context.nestedInfo? property = some next) (further : Renders context next children last node) :
      Renders context info tree last node

/-- Every key of a node that is written with a type is a property of the type. -/
def Fits (context : EntityContext) (info : TypeInfo) (tree : PathTree.Branches) : Prop :=
  ∀ last node, context.Renders info tree last node →
    ∀ key, key ∈ KeyedList.keys node → (last.property? key).isSome

def Single (context : EntityContext) (info : TypeInfo) (tree : PathTree.Branches) : Prop :=
  ∀ last node, context.Renders info tree last node →
    ∀ key property, last.property? key = some property → property.descriptor.isCollection = false

theorem Single.tail {entry : String × PathTree} {rest : PathTree.Branches} (single : context.Single info (entry :: rest)) :
    context.Single info rest := by
  intro last node renders
  cases renders with
  | here => exact single info _ .here
  | under member owned nested further =>
    exact single last node (.under (List.mem_cons_of_mem entry member) owned nested further)

theorem values_object (reader : LeafReader) {tree : PathTree.Branches} (single : context.Single info tree) (next : Nat) :
    (context.object (some info) reader next tree).values =
      (context.kept info tree).map (reader.single context.leaf) := by
  rw [object, Plan.values]
  induction tree using PathTree.branches_induction generalizing info next with
  | nil => simp [typedEntries, Plan.memberValues, kept]
  | leaf key mapping rest others =>
    cases owned : info.property? key with
    | none =>
      rw [typedEntries, kept, owned]
      exact others single.tail next
    | some property =>
      have plain : property.descriptor.isCollection = false := single info _ .here key property owned
      simp [typedEntries, typedMember, leafMember, kept, keptBelow, owned, plain, Plan.memberValues, Plan.values,
        LeafReader.values_single, others single.tail]
  | node key children rest below others =>
    cases owned : info.property? key with
    | none =>
      rw [typedEntries, kept, owned]
      exact others single.tail next
    | some property =>
      have plain : property.descriptor.isCollection = false := single info _ .here key property owned
      cases nested : context.nestedInfo? property with
      | none =>
        simp [typedEntries, typedMember, kept, keptBelow, owned, plain, nested, Plan.memberValues, Plan.values,
          values_untypedEntries, others single.tail]
      | some inner =>
        have inside : context.Single inner children :=
          fun last node further => single last node (.under List.mem_cons_self owned nested further)
        simp [typedEntries, typedMember, kept, keptBelow, owned, plain, nested, Plan.memberValues, Plan.values,
          below inside, others single.tail]

/-! ## Trees that fit -/

theorem kept_sublist (context : EntityContext) (info : TypeInfo) (tree : PathTree.Branches) :
    (context.kept info tree).Sublist (PathTree.leavesOf tree) := by
  induction tree using PathTree.branches_induction generalizing info with
  | nil => simp [kept, PathTree.leavesOf]
  | leaf key mapping rest others =>
    rw [kept, PathTree.leavesOf]
    split
    · exact (others info).trans (List.sublist_append_right _ _)
    · rw [keptBelow, PathTree.leaves]
      exact (List.Sublist.refl _).append (others info)
  | node key children rest below others =>
    rw [kept, PathTree.leavesOf]
    split
    · exact (others info).trans (List.sublist_append_right _ _)
    · rw [keptBelow, PathTree.leaves]
      split
      · exact (List.Sublist.refl _).append (others info)
      · exact (below _).append (others info)

theorem keptBelow_sublist (context : EntityContext) (property : PropertyInfo) (child : PathTree) :
    (context.keptBelow property child).Sublist (PathTree.leaves child) := by
  cases child with
  | leaf mapping => simp [keptBelow, PathTree.leaves]
  | node children =>
    rw [keptBelow, PathTree.leaves]
    split
    · exact List.Sublist.refl _
    · exact kept_sublist context _ children

theorem eq_and_eq_of_append_eq {α : Type} {as bs cs ds : List α} (front : as.Sublist cs) (back : bs.Sublist ds)
    (same : as ++ bs = cs ++ ds) : as = cs ∧ bs = ds := by
  have lengths := congrArg List.length same
  simp only [List.length_append] at lengths
  have := front.length_le
  have := back.length_le
  exact ⟨front.eq_of_length (by omega), back.eq_of_length (by omega)⟩

theorem kept_eq_iff_each {branches : PathTree.Branches}
    (inhabited : ∀ key child, (key, child) ∈ branches → PathTree.leaves child ≠ []) :
    context.kept info branches = PathTree.leavesOf branches ↔ ∀ key child, (key, child) ∈ branches →
      ∃ property, info.property? key = some property ∧ context.keptBelow property child = PathTree.leaves child := by
  induction branches with
  | nil => simp [kept, PathTree.leavesOf]
  | cons entry rest ih =>
    obtain ⟨key, child⟩ := entry
    have others := ih fun key child member => inhabited key child (List.mem_cons_of_mem _ member)
    rw [kept, PathTree.leavesOf]
    constructor
    · intro same
      cases owned : info.property? key with
      | none =>
        rw [owned] at same
        -- The leaves of a branch without a property are missing, so the kept ones are too few.
        have short := (kept_sublist context info rest).length_le
        have lengths := congrArg List.length same
        have some := List.length_pos_iff.mpr (inhabited key child List.mem_cons_self)
        simp only [List.length_append] at lengths
        omega
      | some property =>
        rw [owned] at same
        obtain ⟨below, later⟩ := eq_and_eq_of_append_eq (keptBelow_sublist context property child)
          (kept_sublist context info rest) same
        intro other inner member
        rcases List.mem_cons.mp member with here | behind
        · cases here
          exact ⟨property, owned, below⟩
        · exact others.mp later other inner behind
    · intro each
      obtain ⟨property, owned, below⟩ := each key child List.mem_cons_self
      simp only [owned, below, others.mpr fun key child member => each key child (List.mem_cons_of_mem _ member)]

theorem fits_iff_each {tree : PathTree.Branches} :
    context.Fits info tree ↔ ∀ key child, (key, child) ∈ tree → ∃ property, info.property? key = some property ∧
      ∀ children next, child = .node children → context.nestedInfo? property = some next →
        context.Fits next children := by
  constructor
  · intro fits key child member
    have present := fits info tree .here key (List.mem_map.mpr ⟨_, member, rfl⟩)
    obtain ⟨property, owned⟩ := Option.isSome_iff_exists.mp present
    refine ⟨property, owned, ?_⟩
    rintro children next rfl nested last node further
    exact fits last node (.under member owned nested further)
  · intro each last node renders key listed
    cases renders with
    | here =>
      obtain ⟨⟨_, child⟩, member, rfl⟩ := List.mem_map.mp listed
      obtain ⟨property, owned, _⟩ := each _ child member
      exact Option.isSome_of_mem owned
    | under member owned nested further =>
      obtain ⟨property, found, below⟩ := each _ _ member
      cases owned.symm.trans found
      exact below _ _ rfl nested last node further key listed

/-- All leaves are kept just if the tree fits its type. -/
theorem kept_eq_iff {path : List String} {tree : PathTree.Branches} (tidy : PathTree.Tidy path tree) :
    context.kept info tree = PathTree.leavesOf tree ↔ context.Fits info tree := by
  induction tidy generalizing info with
  | @intro path tree distinct placed inhabited below ih =>
    have tidy : PathTree.Tidy path tree := .intro distinct placed inhabited below
    have filled : ∀ key child, (key, child) ∈ tree → PathTree.leaves child ≠ [] := by
      intro key child member
      obtain ⟨mapping, listed, _⟩ := tidy.exists_key_mem member
      exact List.ne_nil_of_mem listed
    rw [kept_eq_iff_each filled, fits_iff_each]
    refine forall_congr' fun key => forall_congr' fun child => forall_congr' fun member => ?_
    refine exists_congr fun property => and_congr_right fun _ => ?_
    cases child with
    | leaf mapping => simp [keptBelow, PathTree.leaves]
    | node children =>
      cases nested : context.nestedInfo? property with
      | none => simp [keptBelow, PathTree.leaves, nested]
      | some inner => simpa [keptBelow, PathTree.leaves, nested] using ih key children member

end EntityContext

end ProfileConnector
