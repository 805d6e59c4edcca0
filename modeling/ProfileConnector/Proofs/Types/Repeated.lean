import ProfileConnector.Proofs.Types.Draft

/-!
Synthesis that is repeated. Once a tree is merged into a type, all its branches have their fields, and
below a nested field the type there has all that the subtree brings; so merging the tree again takes
the branch of the existing field everywhere and changes nothing.
-/

namespace ProfileConnector

namespace DerivedFields

variable {types later : DerivedFields} {name : String}

theorem opened_of_mem_keys (present : name ∈ KeyedList.keys types) : types.opened name = types := by
  obtain ⟨fields, found⟩ := Option.isSome_iff_exists.mp (KeyedList.isSome_get?.mpr present)
  rw [opened, fieldsOf, found, Option.getD_some]
  exact KeyedList.put_of_get? found

theorem visitChild_of_field (sound : Sound later) {key : String} {child : PathTree}
    (present : (later.field? name key).isSome)
    (below : ∀ children type, child = .node children → later.nested? name key = some type →
      visit later type children = later) : visitChild later name key child = later := by
  obtain ⟨field, found⟩ := Option.isSome_iff_exists.mp present
  cases child with
  | leaf mapping => simp only [visitChild, found]
  | node children =>
    simp only [visitChild, found]
    cases shape : field.target with
    | text => rfl
    | nested type =>
      have nested : later.nested? name key = some type := by
        rw [nested?, found, Option.bind_some, DerivedField.nestedType?, shape]
      simp only [opened_of_mem_keys (sound.nested name key type nested).1]
      exact below children type rfl nested

theorem visit_of_grows (sound : Sound later) {branches : PathTree.Branches} {path : List String}
    (tidy : PathTree.Tidy path branches) (grown : Grows (visit types name branches) later) :
    visit later name branches = later := by
  induction branches using PathTree.branches_induction generalizing path types name with
  | nil => rw [visit]
  | leaf key mapping rest others =>
    rw [visit] at grown ⊢
    have branch := (grows_visit _ name tidy.tail).trans grown
    have entered := isSome_field?_withField types name key (branchTarget name key (.leaf mapping))
    rw [← field?_entered, ← visitChild_leaf] at entered
    rw [visitChild_of_field sound (branch.isSome entered) (fun _ _ same => by cases same)]
    exact others tidy.tail grown
  | node key children rest below others =>
    rw [visit] at grown ⊢
    have branch := (grows_visit _ name tidy.tail).trans grown
    have field := (grows_visitChild types name tidy List.mem_cons_self).trans branch
    have entered := isSome_field?_withField types name key (branchTarget name key (.node children))
    rw [← field?_entered] at entered
    rw [visitChild_of_field sound (field.isSome entered) fun inner type same nested => ?_]
    · exact others tidy.tail grown
    · -- The field led to the same type when the subtree was merged below it.
      cases same
      rw [visitChild_node, ← field.nested? entered, nested] at branch
      exact below (tidy.child List.mem_cons_self) branch

theorem extended_extended (formed : Formed types) (name : String) (fields : List FieldMapping) :
    (types.extended name (PathTree.build fields)).extended name (PathTree.build fields) =
      types.extended name (PathTree.build fields) := by
  have sound := (Drafts.extended_ofTypes formed name fields).1.sound
  conv_lhs => rw [extended, opened_of_mem_keys (mem_keys_extended (PathTree.tidy_build fields) types name)]
  exact visit_of_grows sound (PathTree.tidy_build fields) fun _ _ _ found => found

theorem mem_toTypes (present : name ∈ KeyedList.keys types) : ⟨name, types.fieldsOf name⟩ ∈ types.toTypes := by
  obtain ⟨fields, found⟩ := Option.isSome_iff_exists.mp (KeyedList.isSome_get?.mpr present)
  rw [fieldsOf, found, Option.getD_some]
  exact List.mem_map.mpr ⟨_, KeyedList.mem_of_get? found, rfl⟩

end DerivedFields

namespace Drafting

/--
In every state that calls lead to and that is not frozen, synthesizing answers with a type of the name,
which the drafts then hold; and the same call again gives the same answer and leaves the drafts, their
order, their fields and the variable names they gave away just as they are.
-/
theorem synthesize_again (calls : List SynthesisCall) (growing : (after {} calls).frozen = none) (name : String)
    (fields : List FieldMapping) :
    let first := (after {} calls).synthesize name fields
    (∃ type ∈ first.2.drafts.toTypes, type.name = name ∧ first.1 = .type type) ∧
    first.2.frozen = none ∧
    first.2.synthesize name fields = first := by
  have mirrors : Mirrors (after {} calls) (Synthesis.after {} calls) := mirrors_nil.after calls
  generalize after {} calls = state, Synthesis.after {} calls = synthesis at growing mirrors
  intro first
  let merged := synthesis.types.extended name (PathTree.build fields)
  have formed : merged.Formed := (Drafts.extended_ofTypes mirrors.formed name fields).1
  have extended : state.drafts.extended name (PathTree.build fields) = Drafts.ofTypes merged := by
    rw [mirrors.drafts, (Drafts.extended_ofTypes mirrors.formed name fields).2]
  have again : (Drafts.ofTypes merged).extended name (PathTree.build fields) = Drafts.ofTypes merged := by
    rw [(Drafts.extended_ofTypes formed name fields).2, DerivedFields.extended_extended mirrors.formed]
  have answered : first = (.type ⟨name, merged.fieldsOf name⟩, ⟨Drafts.ofTypes merged, none⟩) := by
    simp only [first, synthesize, growing, extended, Drafts.draftOf_ofTypes, Drafts.settled]
  rw [answered]
  refine ⟨⟨⟨name, merged.fieldsOf name⟩, ?_, rfl, rfl⟩, rfl, ?_⟩
  · rw [Drafts.toTypes_ofTypes]
    exact DerivedFields.mem_toTypes (DerivedFields.mem_keys_extended (PathTree.tidy_build fields) synthesis.types name)
  · simp only [synthesize, again, Drafts.draftOf_ofTypes, Drafts.settled]

def sharedFields : List FieldMapping := [
  ⟨"x.y", { headers := ["Y"] }⟩, ⟨"b.c", { headers := ["C"] }⟩, ⟨"B.c.d", { headers := ["D"] }⟩,
  ⟨"B.C", { headers := ["E"] }⟩]

theorem synthesize_again_shared :
    let calls : List SynthesisCall := [.synthesize "gadget" [⟨"x", { headers := ["X"] }⟩]]
    let first := (after {} calls).synthesize "gadget" sharedFields
    (after {} calls).frozen = none ∧
    first.2.drafts.toTypes = [
      ⟨"gadget", [⟨"x", "x", .text⟩, ⟨"b", "b", .nested "gadgetB"⟩, ⟨"B", "b1", .nested "gadgetB"⟩]⟩,
      ⟨"gadgetB", [⟨"c", "c", .text⟩, ⟨"C", "c1", .text⟩]⟩] ∧
    first.2.synthesize "gadget" sharedFields = first := by
  intro calls first
  have growing : (after {} calls).frozen = none := rfl
  exact ⟨growing, by decide +kernel, (synthesize_again calls growing "gadget" sharedFields).2.2⟩

end Drafting

end ProfileConnector
