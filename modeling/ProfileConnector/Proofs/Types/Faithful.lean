import ProfileConnector.Proofs.PathTree.Collision
import ProfileConnector.Proofs.Types.Draft
import ProfileConnector.Proofs.Types.Requests

/-!
Derived types and the paths to their nodes. The path of a node leads through nested fields to the type of
the joined name, which is the name of the entity followed by the capitalized keys. Nodes with one joined
name share that type; it has the keys of all of them, each as the first node has it that brings it along.
-/

namespace ProfileConnector

open Outcome

/-! ## Paths to nodes -/

namespace PathTree

theorem at?_append {path rest : List String} {tree node : Branches} (held : at? path tree = some (.node node)) :
    at? (path ++ rest) tree = at? rest node := by
  induction path generalizing tree with
  | nil =>
    cases held
    rfl
  | cons key path ih =>
    rw [at?] at held
    rw [List.cons_append, at?]
    split at held
    · cases held
    · split at held <;> cases held
    · exact ih held

theorem at?_singleton {key : String} {child : PathTree} {tree : Branches} :
    at? [key] tree = some child ↔ KeyedList.get? key tree = some child := by
  rw [at?]
  cases KeyedList.get? key tree with
  | none => rfl
  | some found => cases found <;> simp [at?]

theorem Tidy.at? {path rest : List String} {tree node : Branches} (tidy : Tidy path tree)
    (held : PathTree.at? rest tree = some (.node node)) : Tidy (path ++ rest) node := by
  induction rest generalizing path tree with
  | nil =>
    cases held
    rwa [List.append_nil]
  | cons key rest ih =>
    rw [PathTree.at?] at held
    split at held
    · cases held
    · split at held <;> cases held
    · rename_i children found
      rw [List.append_cons]
      exact ih (tidy.child (KeyedList.mem_of_get? found)) held

end PathTree

namespace DerivedFields

variable {types : DerivedFields} {name last key : String}

def reached? (types : DerivedFields) (name : String) (path : List String) : Option String :=
  path.foldlM types.nested? name

theorem reached?_concat (types : DerivedFields) (name : String) (path : List String) (key : String) :
    types.reached? name (path ++ [key]) = (types.reached? name path).bind fun last => types.nested? last key := by
  simp [reached?, List.foldlM_append]

theorem descends_iff {path : List String} {tree node : PathTree.Branches} (tidy : PathTree.Tidy path tree) :
    types.Descends name tree last node ↔
      ∃ keys, PathTree.at? keys tree = some (.node node) ∧ types.reached? name keys = some last := by
  constructor
  · intro descends
    induction descends generalizing path with
    | here => exact ⟨[], rfl, rfl⟩
    | @under name key type last tree children node listed nested _ ih =>
      obtain ⟨keys, held, reached⟩ := ih (tidy.child listed)
      have found := (KeyedList.get?_eq_some tidy.distinct).mpr listed
      exact ⟨key :: keys, by simpa only [PathTree.at?, found] using held, by simpa [reached?, nested] using reached⟩
  · rintro ⟨keys, held, reached⟩
    induction keys generalizing name tree path with
    | nil =>
      cases held
      cases reached
      exact .here
    | cons key keys ih =>
      rw [PathTree.at?] at held
      split at held
      · cases held
      · split at held <;> cases held
      · rename_i children found
        have listed := KeyedList.mem_of_get? found
        obtain ⟨type, nested, further⟩ := Option.bind_eq_some_iff.mp reached
        exact .under listed nested (ih (tidy.child listed) held further)

/-- The name of the type that a path leads to, where it leads to one. -/
def joinedName (name : String) (path : List String) : String := path.foldl nestedName name

theorem Formed.eq_joinedName (formed : Formed types) {path : List String}
    (reached : types.reached? name path = some last) : last = joinedName name path := by
  induction path generalizing name with
  | nil =>
    cases reached
    rfl
  | cons key path ih =>
    obtain ⟨type, nested, further⟩ := Option.bind_eq_some_iff.mp reached
    obtain rfl := formed.named name key type nested
    exact ih further

/-! ## Fields and nodes -/

/-- A field stands for a child of a node that belongs to its type, and leads on just if the child is a subtree. -/
theorem exists_node_of_field? {fields : List FieldMapping} {field : DerivedField}
    (found : (extended [] name (PathTree.build fields)).field? last key = some field) :
    ∃ node child, (extended [] name (PathTree.build fields)).Descends name (PathTree.build fields) last node ∧
      (key, child) ∈ node ∧ field.target = branchTarget last key child := by
  have target : (extended [] name (PathTree.build fields)).target? last key = some field.target := by
    rw [target?, found, Option.map_some]
  change (extendedAll [] [(name, PathTree.build fields)]).target? last key = some field.target at target
  rw [target?_extendedAll_nil (tidy_single (PathTree.tidy_build fields) name), requestsAll_single] at target
  obtain ⟨owner, node, wanted, child, descends, listed, same⟩ := exists_of_mem_requests (KeyedList.mem_of_get? target)
  obtain ⟨⟨rfl, rfl⟩, kind⟩ := by simpa using same
  exact ⟨node, child, descends, listed, kind⟩

theorem isSome_field?_of_node {fields : List FieldMapping} {node : PathTree.Branches}
    (descends : (extended [] name (PathTree.build fields)).Descends name (PathTree.build fields) last node)
    (listed : key ∈ KeyedList.keys node) : ((extended [] name (PathTree.build fields)).field? last key).isSome :=
  isSome_field?_of_descends (PathTree.tidy_build fields) (fun _ _ _ found => found) descends listed

theorem declaredType_branchTarget {field : DerivedField} {child : PathTree}
    (kind : field.target = branchTarget last key child) :
    field.declaredType ≠ "Edm.String" ↔ child.isLeaf = false := by
  cases child with
  | leaf mapping =>
    have text : field.declaredType = "Edm.String" := by rw [DerivedField.declaredType, kind, branchTarget]
    simp [text, PathTree.isLeaf]
  | node children => simp [DerivedField.declaredType_ne_text kind, PathTree.isLeaf]

end DerivedFields

/-! ## Following paths -/

/-- A type has a field for each key of a node and no other, a composite one just if the child is a subtree. -/
structure DerivedType.Depicts (type : DerivedType) (node : PathTree.Branches) : Prop where
  names : (type.fields.map (·.name)).Perm (KeyedList.keys node)
  composite : ∀ field ∈ type.fields, ∀ child, (field.name, child) ∈ node →
    (field.declaredType ≠ "Edm.String" ↔ child.isLeaf = false)

namespace Synthesis

/-- Follows the keys of a path from a type on, through the types that its fields refer to. -/
def followed? (synthesis : Synthesis) (name : String) : List String → Option DerivedType
  | [] => (synthesis.get name).toOption
  | key :: rest => do
    let type ← (synthesis.get name).toOption
    let field ← type.field? key
    synthesis.followed? (← field.referredType?) rest

variable {synthesis : Synthesis} {name : String}

theorem get_of_mem_keys (present : name ∈ KeyedList.keys synthesis.types) :
    synthesis.get name = .ok ⟨name, synthesis.types.fieldsOf name⟩ := by
  obtain ⟨fields, found⟩ := Option.isSome_iff_exists.mp (KeyedList.isSome_get?.mpr present)
  rw [get, found, DerivedFields.fieldsOf, found, Option.getD_some]

theorem referredType?_eq (formed : DerivedFields.Formed synthesis.types) (key : String) :
    (synthesis.types.field? name key).bind DerivedField.referredType? = synthesis.types.nested? name key := by
  cases found : synthesis.types.field? name key with
  | none => simp [DerivedFields.nested?, found]
  | some field =>
    rw [DerivedFields.nested?, found, Option.bind_some, Option.bind_some]
    cases target : field.target with
    | text => simp [DerivedField.referredType?, DerivedField.declaredType, DerivedField.nestedType?, target]
    | nested type =>
      have nested : synthesis.types.nested? name key = some type := by
        simp [DerivedFields.nested?, found, DerivedField.nestedType?, target]
      rw [DerivedField.referredType?_nested target (formed.sound.nested name key type nested).2,
        DerivedField.nestedType?, target]

theorem followed?_eq (formed : DerivedFields.Formed synthesis.types)
    (present : name ∈ KeyedList.keys synthesis.types) (path : List String) :
    synthesis.followed? name path =
      (synthesis.types.reached? name path).map fun last => ⟨last, synthesis.types.fieldsOf last⟩ := by
  induction path generalizing name with
  | nil =>
    rw [followed?, get_of_mem_keys present]
    rfl
  | cons key rest ih =>
    rw [followed?, get_of_mem_keys present, DerivedFields.reached?, List.foldlM_cons, ← referredType?_eq formed]
    change ((synthesis.types.field? name key).bind fun field => field.referredType?.bind fun type =>
      synthesis.followed? type rest) = _
    rw [← Option.bind_assoc, referredType?_eq formed]
    cases nested : synthesis.types.nested? name key with
    | none => rfl
    | some type => exact ih (formed.sound.nested name key type nested).1

/-- Every path of subtree keys leads to a type that depicts the node there. -/
def Faithful (synthesis : Synthesis) (name : String) (tree : PathTree.Branches) : Prop :=
  ∀ path node, PathTree.at? path tree = some (.node node) →
    ∃ type, synthesis.followed? name path = some type ∧ type.Depicts node

end Synthesis

/-- Nodes with one joined name have the same keys, each as a leaf in both or as a subtree in both. -/
def PathTree.Alike (name : String) (tree : PathTree.Branches) : Prop :=
  ∀ path other node node', PathTree.at? path tree = some (.node node) → PathTree.at? other tree = some (.node node') →
    DerivedFields.joinedName name path = DerivedFields.joinedName name other →
    ∀ key, (KeyedList.get? key node).map PathTree.isLeaf = (KeyedList.get? key node').map PathTree.isLeaf

theorem DerivedType.Depicts.alike {type : DerivedType} {node node' : PathTree.Branches} (depicts : type.Depicts node)
    (depicts' : type.Depicts node') (key : String) :
    (KeyedList.get? key node).map PathTree.isLeaf = (KeyedList.get? key node').map PathTree.isLeaf := by
  by_cases known : key ∈ type.fields.map (·.name)
  · obtain ⟨field, listed, rfl⟩ := List.mem_map.mp known
    obtain ⟨child, found⟩ := Option.isSome_iff_exists.mp (KeyedList.isSome_get?.mpr (depicts.names.mem_iff.mp known))
    obtain ⟨child', found'⟩ := Option.isSome_iff_exists.mp (KeyedList.isSome_get?.mpr (depicts'.names.mem_iff.mp known))
    have kind := (depicts.composite field listed child (KeyedList.mem_of_get? found)).symm.trans
      (depicts'.composite field listed child' (KeyedList.mem_of_get? found'))
    rw [found, found', Option.map_some, Option.map_some, Option.some_inj]
    cases leaf : child.isLeaf <;> simp_all
  · rw [KeyedList.get?_eq_none (mt depicts.names.mem_iff.mpr known),
      KeyedList.get?_eq_none (mt depicts'.names.mem_iff.mpr known)]

namespace DerivedFields

variable {name last key : String} {fields : List FieldMapping} {path : List String} {node : PathTree.Branches}

theorem formed_extended_nil (name : String) (fields : List FieldMapping) :
    Formed (extended [] name (PathTree.build fields)) :=
  (Drafts.extended_ofTypes formed_nil name fields).1

theorem exists_path_of_field? {field : DerivedField}
    (found : (extended [] name (PathTree.build fields)).field? last key = some field) :
    ∃ path node child, PathTree.at? path (PathTree.build fields) = some (.node node) ∧
      (extended [] name (PathTree.build fields)).reached? name path = some last ∧ KeyedList.get? key node = some child ∧
      (field.declaredType ≠ "Edm.String" ↔ child.isLeaf = false) := by
  obtain ⟨node, child, descends, listed, kind⟩ := exists_node_of_field? found
  obtain ⟨path, held, reached⟩ := (descends_iff (PathTree.tidy_build fields)).mp descends
  have tidy := (PathTree.tidy_build fields).at? held
  have own := (KeyedList.get?_eq_some tidy.distinct).mpr listed
  exact ⟨path, node, child, held, reached, own, declaredType_branchTarget kind⟩

theorem exists_field?_of_path (held : PathTree.at? path (PathTree.build fields) = some (.node node))
    (reached : (extended [] name (PathTree.build fields)).reached? name path = some last)
    (listed : key ∈ KeyedList.keys node) :
    ∃ field, (extended [] name (PathTree.build fields)).field? last key = some field :=
  Option.isSome_iff_exists.mp
    (isSome_field?_of_node ((descends_iff (PathTree.tidy_build fields)).mpr ⟨path, held, reached⟩) listed)

theorem get?_of_alike (alike : PathTree.Alike name (PathTree.build fields))
    (held : PathTree.at? path (PathTree.build fields) = some (.node node))
    (reached : (extended [] name (PathTree.build fields)).reached? name path = some last) {field : DerivedField}
    (found : (extended [] name (PathTree.build fields)).field? last key = some field) :
    ∃ child, KeyedList.get? key node = some child ∧ (field.declaredType ≠ "Edm.String" ↔ child.isLeaf = false) := by
  obtain ⟨other, node', child', held', reached', found', kind⟩ := exists_path_of_field? found
  have formed := formed_extended_nil name fields
  have joined := (formed.eq_joinedName reached).symm.trans (formed.eq_joinedName reached')
  have same := alike path other node node' held held' joined key
  rw [found', Option.map_some, Option.map_eq_some_iff] at same
  obtain ⟨child, own, leaf⟩ := same
  exact ⟨child, own, by rw [kind, leaf]⟩

theorem reached?_of_alike (alike : PathTree.Alike name (PathTree.build fields)) {rest : List String}
    {tree : PathTree.Branches} (held : PathTree.at? path (PathTree.build fields) = some (.node tree))
    (reached : (extended [] name (PathTree.build fields)).reached? name path = some last)
    (further : PathTree.at? rest tree = some (.node node)) :
    ∃ final, (extended [] name (PathTree.build fields)).reached? name (path ++ rest) = some final := by
  induction rest generalizing path tree last with
  | nil => exact ⟨last, by rwa [List.append_nil]⟩
  | cons key rest ih =>
    rw [PathTree.at?] at further
    split at further
    · cases further
    · split at further <;> cases further
    · rename_i children subtree
      obtain ⟨field, present⟩ := exists_field?_of_path held reached (KeyedList.mem_keys_of_get? subtree)
      -- All nodes at this type agree on the key, so the field is composite and leads on.
      obtain ⟨child, own, kind⟩ := get?_of_alike alike held reached present
      cases own.symm.trans subtree
      have nested : ∃ type, (extended [] name (PathTree.build fields)).nested? last key = some type := by
        rw [nested?, present, Option.bind_some, DerivedField.nestedType?]
        cases target : field.target with
        | text => exact absurd (by rw [DerivedField.declaredType, target]) (kind.mpr rfl)
        | nested type => exact ⟨type, rfl⟩
      obtain ⟨type, nested⟩ := nested
      have held' : PathTree.at? (path ++ [key]) (PathTree.build fields) = some (.node children) := by
        rw [PathTree.at?_append held, PathTree.at?_singleton]
        exact subtree
      have reached' : (extended [] name (PathTree.build fields)).reached? name (path ++ [key]) = some type := by
        rw [reached?_concat, reached, Option.bind_some, nested]
      rw [List.append_cons]
      exact ih held' reached' further

theorem depicts_of_alike (alike : PathTree.Alike name (PathTree.build fields))
    (held : PathTree.at? path (PathTree.build fields) = some (.node node))
    (reached : (extended [] name (PathTree.build fields)).reached? name path = some last) :
    DerivedType.Depicts ⟨last, (extended [] name (PathTree.build fields)).fieldsOf last⟩ node where
  names := by
    have sound := (formed_extended_nil name fields).sound
    have tidy := (PathTree.tidy_build fields).at? held
    refine (List.perm_ext_iff_of_nodup (sound.names last) tidy.distinct).mpr fun key => ?_
    constructor
    · intro known
      obtain ⟨field, listed, rfl⟩ := List.mem_map.mp known
      obtain ⟨child, own, _⟩ := get?_of_alike alike held reached (sound.field?_of_mem listed)
      exact KeyedList.mem_keys_of_get? own
    · intro listed
      obtain ⟨field, found⟩ := exists_field?_of_path held reached listed
      exact List.mem_map.mpr ⟨field, List.mem_of_find?_eq_some found, by simpa using List.find?_some found⟩
  composite field listed child member := by
    have found := (formed_extended_nil name fields).sound.field?_of_mem listed
    obtain ⟨child', own, kind⟩ := get?_of_alike alike held reached found
    have tidy := (PathTree.tidy_build fields).at? held
    cases own.symm.trans ((KeyedList.get?_eq_some tidy.distinct).mpr member)
    exact kind

end DerivedFields

namespace Synthesis

/--
From nothing, the types of a path tree depict the nodes of all paths just if nodes with one joined name are
alike. In general a path that is followed to its end leads to the type of its joined name; this has a field
for each key of the node, and each of its fields stands for a child, of the same kind, of some node whose
path leads there as well.
-/
theorem synthesize_faithful_iff (name : String) (fields : List FieldMapping) :
    ∃ final, synthesize {} name (PathTree.build fields) = .ok final ∧
      (final.Faithful name (PathTree.build fields) ↔ PathTree.Alike name (PathTree.build fields)) ∧
      ∀ path node type, PathTree.at? path (PathTree.build fields) = some (.node node) →
        final.followed? name path = some type →
        type.name = DerivedFields.joinedName name path ∧
        (∀ key ∈ KeyedList.keys node, key ∈ type.fields.map (·.name)) ∧
        ∀ field ∈ type.fields, ∃ other node' child,
          PathTree.at? other (PathTree.build fields) = some (.node node') ∧ final.followed? name other = some type ∧
          KeyedList.get? field.name node' = some child ∧
          (field.declaredType ≠ "Edm.String" ↔ child.isLeaf = false) := by
  let final : Synthesis := ⟨DerivedFields.extended [] name (PathTree.build fields), false⟩
  have formed : DerivedFields.Formed final.types := DerivedFields.formed_extended_nil name fields
  have present : name ∈ KeyedList.keys final.types :=
    DerivedFields.mem_keys_extended (PathTree.tidy_build fields) [] name
  have followed := followed?_eq formed present
  refine ⟨final, rfl, ⟨fun faithful path other node node' held held' joined => ?_, fun alike path node held => ?_⟩, ?_⟩
  · -- Paths with one joined name lead to one type, which then depicts both of their nodes.
    obtain ⟨type, leads, depicts⟩ := faithful path node held
    obtain ⟨type', leads', depicts'⟩ := faithful other node' held'
    rw [followed, Option.map_eq_some_iff] at leads leads'
    obtain ⟨last, reached, rfl⟩ := leads
    obtain ⟨last', reached', rfl⟩ := leads'
    obtain rfl : last = last' := by rw [formed.eq_joinedName reached, formed.eq_joinedName reached', joined]
    exact depicts.alike depicts'
  · have top : PathTree.at? [] (PathTree.build fields) = some (.node (PathTree.build fields)) := rfl
    obtain ⟨last, reached⟩ := DerivedFields.reached?_of_alike alike top rfl held
    refine ⟨⟨last, final.types.fieldsOf last⟩, ?_, DerivedFields.depicts_of_alike alike held reached⟩
    rw [followed, Option.map_eq_some_iff]
    exact ⟨last, reached, rfl⟩
  · intro path node type held leads
    rw [followed, Option.map_eq_some_iff] at leads
    obtain ⟨last, reached, rfl⟩ := leads
    refine ⟨formed.eq_joinedName reached, fun key listed => ?_, fun field listed => ?_⟩
    · obtain ⟨field, found⟩ := DerivedFields.exists_field?_of_path held reached listed
      exact List.mem_map.mpr ⟨field, List.mem_of_find?_eq_some found, by simpa using List.find?_some found⟩
    · obtain ⟨other, node', child, held', reached', found, kind⟩ :=
        DerivedFields.exists_path_of_field? (formed.sound.field?_of_mem listed)
      refine ⟨other, node', child, held', ?_, found, kind⟩
      rw [followed, reached', Option.map_some]

def cappedFields : List FieldMapping := [⟨"b.x", { headers := ["X"] }⟩, ⟨"B.y", { headers := ["Y"] }⟩]

theorem synthesize_shares_type : ∃ final, synthesize {} "gadget" (PathTree.build cappedFields) = .ok final ∧
    (∃ node, PathTree.at? ["b"] (PathTree.build cappedFields) = some (.node node) ∧ KeyedList.keys node = ["x"]) ∧
    final.followed? "gadget" ["b"] = some ⟨"gadgetB", [⟨"x", "x", .text⟩, ⟨"y", "y", .text⟩]⟩ ∧
    ¬ final.Faithful "gadget" (PathTree.build cappedFields) := by
  let final : Synthesis := ⟨DerivedFields.extended [] "gadget" (PathTree.build cappedFields), false⟩
  have leads : final.followed? "gadget" ["b"] = some ⟨"gadgetB", [⟨"x", "x", .text⟩, ⟨"y", "y", .text⟩]⟩ := by
    decide +kernel
  obtain ⟨node, held⟩ : ∃ node, PathTree.at? ["b"] (PathTree.build cappedFields) = some (.node node) := by
    have subtree : (PathTree.at? ["b"] (PathTree.build cappedFields)).map PathTree.isLeaf = some false := by
      decide +kernel
    obtain ⟨child, found, kind⟩ := Option.map_eq_some_iff.mp subtree
    cases child with
    | leaf mapping => cases kind
    | node node => exact ⟨node, found⟩
  have keys : KeyedList.keys node = ["x"] := by
    have below : KeyedList.keys (PathTree.branchesAt "b" (PathTree.build cappedFields)) = ["x"] := by decide +kernel
    rwa [PathTree.branchesAt, PathTree.at?_singleton.mp held] at below
  refine ⟨final, rfl, ⟨node, held, keys⟩, leads, fun faithful => ?_⟩
  obtain ⟨type, found, depicts⟩ := faithful ["b"] node held
  cases leads.symm.trans found
  have lengths := depicts.names.length_eq
  rw [keys] at lengths
  cases lengths

end Synthesis

end ProfileConnector
