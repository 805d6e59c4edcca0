import ProfileConnector.Generation
import ProfileConnector.Proofs.Outcome
import ProfileConnector.Proofs.Plan.Entity
import ProfileConnector.Proofs.Plan.Rerooted
import ProfileConnector.Proofs.Plan.Subtree
import ProfileConnector.Proofs.Script.Writing
import ProfileConnector.Proofs.Target.Length

/-!
Entities made from the entries of an array. Leaves are read from the entry at hand by the path behind
the root of the array, so what is made of an entry should not depend on that root. It does not as long
as no subtree is written under a collection property: such a block reads the whole row.
-/

namespace ProfileConnector

/-! ## Records of entries -/

namespace EntityContext

variable {context : EntityContext} {info : TypeInfo} {f : FieldMapping → FieldMapping} {reader : LeafReader}

/-- No subtree of the tree is written under a collection property. -/
def Direct (context : EntityContext) (info : TypeInfo) (tree : PathTree.Branches) : Prop :=
  ∀ last node, context.Renders info tree last node → ∀ key children property, (key, .node children) ∈ node →
    last.property? key = some property → property.descriptor.isCollection = false

theorem Direct.tail {entry : String × PathTree} {rest : PathTree.Branches}
    (direct : context.Direct info (entry :: rest)) : context.Direct info rest := by
  intro last node renders key children property member owned
  cases renders with
  | here => exact direct info _ .here key children property (List.mem_cons_of_mem entry member) owned
  | under listed found nested further =>
    exact direct last node (.under (List.mem_cons_of_mem entry listed) found nested further) key children property
      member owned

def SameReads (context : EntityContext) (f : FieldMapping → FieldMapping) (reader : LeafReader) : Prop :=
  ∀ mapping, reader.single context.leaf (f mapping) = reader.single context.leaf mapping ∧
    reader.many context.leaf (f mapping) = reader.many context.leaf mapping

theorem sameReads_fromEntry (samePath : ∀ mapping, (f mapping).path = mapping.path)
    (sameFallback : ∀ mapping, (f mapping).source.fallback = mapping.source.fallback)
    (relatives : KeyedList String String) : context.SameReads f (.fromEntry relatives) := by
  intro mapping
  simp only [LeafReader.single, LeafReader.many, LeafReader.relative?, samePath, sameFallback, and_self]

theorem untypedEntries_replacedIn (same : context.SameReads f reader) (tree : PathTree.Branches) :
    context.untypedEntries reader (PathTree.replacedIn f tree) = context.untypedEntries reader tree := by
  induction tree using PathTree.branches_induction with
  | nil => rw [PathTree.replacedIn]
  | leaf key mapping rest others =>
    rw [PathTree.replacedIn, untypedEntries, untypedEntries, PathTree.replaced, untyped, untyped, (same mapping).1, others]
  | node key children rest below others =>
    rw [PathTree.replacedIn, untypedEntries, untypedEntries, PathTree.replaced, untyped, untyped, below, others]

theorem typedEntries_replacedIn (same : context.SameReads f reader) {tree : PathTree.Branches}
    (direct : context.Direct info tree) (next : Nat) :
    context.typedEntries info reader next (PathTree.replacedIn f tree) = context.typedEntries info reader next tree := by
  induction tree using PathTree.branches_induction generalizing info next with
  | nil => rw [PathTree.replacedIn]
  | leaf key mapping rest others =>
    rw [PathTree.replacedIn, typedEntries, typedEntries]
    cases owned : info.property? key with
    | none => exact others direct.tail next
    | some property =>
      have member : context.leafMember reader property (f mapping) = context.leafMember reader property mapping := by
        rw [leafMember, leafMember, (same mapping).1, (same mapping).2]
      simp only [PathTree.replaced, typedMember, member, others direct.tail]
  | node key children rest below others =>
    rw [PathTree.replacedIn, typedEntries, typedEntries]
    cases owned : info.property? key with
    | none => exact others direct.tail next
    | some property =>
      -- A collection would read its leaves from the row, where the replaced source shows.
      have plain : property.descriptor.isCollection = false :=
        direct info _ .here key children property List.mem_cons_self owned
      cases nested : context.nestedInfo? property with
      | none =>
        simp [PathTree.replaced, typedMember, plain, nested, untypedEntries_replacedIn same, others direct.tail]
      | some inner =>
        have inside : context.Direct inner children :=
          fun last node further => direct last node (.under List.mem_cons_self owned nested further)
        simp [PathTree.replaced, typedMember, plain, nested, below inside, others direct.tail]

theorem object_replacedIn (same : context.SameReads f reader) {info : Option TypeInfo} {tree : PathTree.Branches}
    (direct : ∀ known, info = some known → context.Direct known tree) (next : Nat) :
    context.object info reader next (PathTree.replacedIn f tree) = context.object info reader next tree := by
  cases info with
  | none => rw [object, object, untypedEntries_replacedIn same]
  | some known => rw [object, object, typedEntries_replacedIn same (direct known rfl)]

/-! ## Blocks that read the row -/

def LongPaths (n : Nat) (tree : PathTree.Branches) : Prop :=
  ∀ mapping ∈ PathTree.leavesOf tree, mapping.source.hasPath = true ∧
    ∃ path, mapping.source.jsonPath = some path ∧ n ≤ path.length

theorem mem_replacedIn {key : String} {child : PathTree} {tree : PathTree.Branches} (member : (key, child) ∈ tree) :
    (key, PathTree.replaced f child) ∈ PathTree.replacedIn f tree := by
  induction tree with
  | nil => cases member
  | cons entry rest ih =>
    rw [PathTree.replacedIn]
    rcases List.mem_cons.mp member with rfl | later
    · exact List.mem_cons_self
    · exact List.mem_cons_of_mem _ (ih later)

theorem mem_typedEntries (context : EntityContext) (reader : LeafReader) {key : String} {child : PathTree}
    {property : PropertyInfo} {tree : PathTree.Branches} (member : (key, child) ∈ tree)
    (owned : info.property? key = some property) (next : Nat) :
    ∃ free, (property, (context.typedMember property reader free child).1) ∈
      (context.typedEntries info reader next tree).1 := by
  induction tree generalizing next with
  | nil => cases member
  | cons entry rest ih =>
    obtain ⟨other, inner⟩ := entry
    rw [typedEntries]
    rcases List.mem_cons.mp member with same | later
    · cases same
      simp only [owned]
      exact ⟨next, List.mem_cons_self⟩
    · split
      · exact ih later next
      · obtain ⟨free, listed⟩ := ih later _
        exact ⟨free, List.mem_cons_of_mem _ listed⟩

theorem mem_allocated (leaf : LeafLimits) (next : Nat) (mapping : FieldMapping) (others : List FieldMapping) :
    (Layout.slotName next, TypeScript.many (leaf.read mapping.source)) ∈
      (SlotReads.allocate leaf next (mapping :: others)).reads.map fun (slot, read) =>
        (Layout.slotName slot, TypeScript.many read) := by
  simp [SlotReads.allocate]

theorem le_collectionMember {n : Nat} {children : PathTree.Branches} (some : PathTree.leavesOf children ≠ [])
    (long : LongPaths n children) {property : PropertyInfo} (collection : property.descriptor.isCollection = true)
    (next level : Nat) :
    n ≤ (TypeScript.write level (context.typedMember property reader next (.node children)).1).length := by
  have first (mapping : FieldMapping) (member : mapping ∈ PathTree.leavesOf children) :
      n ≤ (TypeScript.many (context.leaf.read mapping.source)).length := by
    obtain ⟨pathed, path, given, enough⟩ := long mapping member
    exact TypeScript.le_many rfl given pathed enough
  rcases context.typedMember_node property reader next children with ⟨single, _⟩ | ⟨empty, _⟩ |
    ⟨mapping, front, same⟩ | ⟨mapping, only, same⟩ | ⟨block, body, rfl, rfl, same⟩
  · cases single.symm.trans collection
  · exact absurd empty some
  · rw [same, TypeScript.write]
    exact TypeScript.le_filled (first mapping (List.mem_of_mem_head? front)) level
  · rw [same, TypeScript.write]
    exact TypeScript.le_mapped (first mapping (only ▸ List.mem_cons_self)) _ _ level
  · obtain ⟨mapping, others, several⟩ := List.exists_cons_of_ne_nil some
    have shown := first mapping (several ▸ List.mem_cons_self)
    rw [same, TypeScript.write, several]
    exact TypeScript.le_broadcast (mem_allocated context.leaf next mapping others) shown _ _ _ level

theorem LongPaths.below {n : Nat} {tree children : PathTree.Branches} (long : LongPaths n tree) {key : String}
    (member : (key, .node children) ∈ tree) : LongPaths n children := by
  intro mapping listed
  refine long mapping (PathTree.mem_leavesOf.mpr ⟨key, _, member, ?_⟩)
  rwa [PathTree.leaves]

theorem exists_long_collection (context : EntityContext) (reader : LeafReader) {n : Nat} {path : List String}
    {tree : PathTree.Branches} (tidy : PathTree.Tidy path tree) (long : LongPaths n (PathTree.replacedIn f tree))
    {key : String} {children : PathTree.Branches} {property : PropertyInfo} (member : (key, .node children) ∈ tree)
    (owned : info.property? key = some property) (collection : property.descriptor.isCollection = true) (next : Nat) :
    ∃ entry ∈ (context.typedEntries info reader next (PathTree.replacedIn f tree)).1,
      ∀ level, n ≤ (TypeScript.write level entry.2).length := by
  have replaced : (key, .node (PathTree.replacedIn f children)) ∈ PathTree.replacedIn f tree := by
    have listed := mem_replacedIn (f := f) member
    rwa [PathTree.replaced] at listed
  have some : PathTree.leavesOf (PathTree.replacedIn f children) ≠ [] := by
    obtain ⟨mapping, listed⟩ := tidy.exists_leaf_below member
    rw [PathTree.leavesOf_replacedIn]
    exact List.ne_nil_of_mem (List.mem_map_of_mem listed)
  obtain ⟨free, listed⟩ := mem_typedEntries context reader replaced owned next
  exact ⟨_, listed, fun level => le_collectionMember some (long.below replaced) collection free level⟩

theorem mem_writeMembers {level : Nat} {entries : List (PropertyInfo × Plan)} {entry : PropertyInfo × Plan}
    (member : entry ∈ entries) :
    (entry.1.name, TypeScript.write level entry.2) ∈ TypeScript.writeMembers level entries := by
  rw [TypeScript.writeMembers_eq]
  exact List.mem_map.mpr ⟨entry, member, rfl⟩

theorem exists_long_member (reader : LeafReader) {n : Nat} {path : List String} {last : TypeInfo}
    {tree node : PathTree.Branches} (tidy : PathTree.Tidy path tree) (long : LongPaths n (PathTree.replacedIn f tree))
    (renders : context.Renders info tree last node) {key : String} {children : PathTree.Branches}
    {property : PropertyInfo} (member : (key, .node children) ∈ node) (owned : last.property? key = some property)
    (collection : property.descriptor.isCollection = true) (next : Nat) :
    ∃ entry ∈ (context.typedEntries info reader next (PathTree.replacedIn f tree)).1,
      ∀ level, n ≤ (TypeScript.write level entry.2).length := by
  induction renders generalizing path next with
  | here => exact exists_long_collection context reader tidy long member owned collection next
  | @under info inner last tree below node key' property' listed found nested further ih =>
    by_cases outer : property'.descriptor.isCollection = true
    · exact exists_long_collection context reader tidy long listed found outer next
    · have replaced : (key', .node (PathTree.replacedIn f below)) ∈ PathTree.replacedIn f tree := by
        have listed := mem_replacedIn (f := f) listed
        rwa [PathTree.replaced] at listed
      obtain ⟨free, within⟩ := mem_typedEntries context reader replaced found next
      refine ⟨_, within, fun level => ?_⟩
      obtain ⟨entry, inside, shown⟩ := ih (tidy.child listed) (long.below replaced) member owned free
      rw [typedMember]
      simp only [outer, nested, Bool.not_false, if_true]
      rw [TypeScript.write]
      exact TypeScript.le_typedObject (mem_writeMembers inside) (shown (level + 1)) _ level

end EntityContext

/-! ## Texts of array entries -/

def Target.arrayEntries : Target → (root body : String) → String
  | .typescript, root, body => TypeScript.eachEntry root body
  | .csharp, root, body => CSharp.eachEntry root body 1
  | .python, root, body => s!"[{body} for entry in read_array_entries(row, {Text.quote root})]"

theorem Plan.write_eachEntry (root : String) (body : Plan) (target : Target) :
    (Plan.eachEntry root body).write target = (body.writeAt 3 target).map (target.arrayEntries root) := by
  rw [Plan.write_eq, show (Plan.eachEntry root body).baseLevel = 1 from rfl]
  cases target with
  | typescript => rfl
  | csharp =>
    rw [Plan.writeAt, CSharp.write, Plan.writeAt]
    cases CSharp.write (1 + 2) body <;> rfl
  | python =>
    have front : " for entry in read_array_entries(row, " =
        " for " ++ "entry" ++ " in " ++ "read_array_entries" ++ "(" ++ "row" ++ ", " := by decide
    have back : ")]" = ")" ++ "]" := by decide
    have helper : Helper.readArrayEntries.name = "read_array_entries" := by decide
    have arguments : Layout.items (Term.writeAll 1 [.variable "row", .literal root] ++ Term.writeOptions []) =
        "row" ++ ", " ++ Text.quote root := by
      rw [Term.writeAll_eq, List.map_cons, List.map_cons, List.map_nil, Term.write_variable, Term.write_literal,
        Term.writeOptions, List.map_nil, List.append_nil, Layout.items, String.intercalate_cons_cons,
        String.intercalate_singleton]
    simp only [Plan.writeAt, Python.term, Python.eachEntry, Target.arrayEntries, Except.map]
    rw [Term.write_comprehension, Term.write_call, arguments, helper, front, back]
    simp only [toString, String.append_assoc]

theorem eq_of_wrapped {front back a b : String} (same : front ++ a ++ back = front ++ b ++ back) : a = b :=
  (String.append_right_inj front).mp ((String.append_left_inj back).mp same)

theorem eq_of_arrayEntries {root : String} {body body' : Except WriteFault String} {a : String} (own : body = .ok a)
    (same : body.map (Target.arrayEntries .typescript root) = body'.map (Target.arrayEntries .typescript root)) :
    body' = .ok a := by
  subst own
  cases body' with
  | error fault => cases same
  | ok b =>
    have inner : a = b := eq_of_wrapped (Except.ok.inj same)
    rw [inner]

namespace EntityContext

variable {context : EntityContext} {info : Option TypeInfo} {format : InputFormat} {fields : List FieldMapping}
  {shared : ArrayRoot}

/-- The mapping of a leaf of the tree with another root in front of its path. -/
def rerootedIn (tree : PathTree.Branches) (root root' : String) (mapping : FieldMapping) : FieldMapping :=
  if mapping ∈ PathTree.leavesOf tree then { mapping with source := mapping.source.rerooted root root' } else mapping

/-- Another root in front of the path of every mapping whose leaf is in the tree. -/
def rerooted (root root' : String) (fields : List FieldMapping) : List FieldMapping :=
  fields.map (rerootedIn (PathTree.build fields) root root')

theorem path_rerootedIn (tree : PathTree.Branches) (root root' : String) (mapping : FieldMapping) :
    (rerootedIn tree root root' mapping).path = mapping.path := by
  unfold rerootedIn
  split <;> rfl

theorem fallback_rerootedIn (tree : PathTree.Branches) (root root' : String) (mapping : FieldMapping) :
    (rerootedIn tree root root' mapping).source.fallback = mapping.source.fallback := by
  unfold rerootedIn
  split <;> rfl

theorem source_rerootedIn {tree : PathTree.Branches} {mapping : FieldMapping}
    (member : mapping ∈ PathTree.leavesOf tree) (root root' : String) :
    (rerootedIn tree root root' mapping).source = mapping.source.rerooted root root' :=
  congrArg FieldMapping.source (if_pos member)

theorem write_entityCollection (structured : format.isRow = false)
    (common : ArrayRoot.common? (PathTree.leavesOf (PathTree.build fields)) = some shared) (target : Target) :
    (context.entityCollection format info fields).write target =
      ((Plan.serialized (context.object info (.fromEntry shared.relatives) 0 (PathTree.build fields))).writeAt 3
        target).map (target.arrayEntries shared.root) := by
  rw [entityCollection]
  simp only [structured, Bool.false_eq_true, if_false, common]
  exact Plan.write_eachEntry _ _ target

theorem write_rerooted (structured : format.isRow = false)
    (common : ArrayRoot.common? (PathTree.leavesOf (PathTree.build fields)) = some shared) {root' : String}
    (isRoot : ArrayRoot.IsRoot root') (target : Target) :
    (context.entityCollection format info (rerooted shared.root root' fields)).write target =
      ((Plan.serialized (context.object info (.fromEntry shared.relatives) 0
        (PathTree.replacedIn (rerootedIn (PathTree.build fields) shared.root root')
          (PathTree.build fields)))).writeAt 3 target).map (target.arrayEntries root') := by
  have tree := PathTree.build_map (path_rerootedIn (PathTree.build fields) shared.root root') fields
  have common' : ArrayRoot.common? (PathTree.leavesOf (PathTree.build (rerooted shared.root root' fields))) =
      some { shared with root := root' } := by
    rw [rerooted, tree, PathTree.leavesOf_replacedIn]
    exact ArrayRoot.common?_map (path_rerootedIn _ _ _) isRoot (fun leaf member => source_rerootedIn member _ _) common
  rw [write_entityCollection structured common', rerooted, tree]

def longRoot (n : Nat) : String := String.ofList (List.replicate n 'a' ++ ['[', '*', ']'])

theorem isRoot_longRoot (n : Nat) : ArrayRoot.IsRoot (longRoot n) := by
  rw [ArrayRoot.IsRoot, longRoot, Text.ofString, String.toList_ofList]
  induction n with
  | zero => rfl
  | succ n ih =>
    rw [List.replicate_succ, List.cons_append, Text.ofChars, List.map_cons, Path.cutAtWildcard]
    · rw [Text.ofChars] at ih
      rw [ih, Option.map_some]
    · intro rest bracket
      cases bracket

theorem trimChars_ne_nil {c : Char} (filled : Text.isBlank c = false) (rest : List Char) :
    Text.trimChars (c :: rest) ≠ [] := by
  rw [Text.trimChars, Text.trimBy, List.dropWhile_cons_of_neg (by simp [filled]), Ne, List.reverse_eq_nil_iff,
    List.dropWhile_eq_nil_iff]
  intro blank
  have own := blank c (by simp)
  rw [filled] at own
  cases own

theorem hasPath_rerooted {root relative : String} {source : Source}
    (cut : ArrayRoot.split? source = some (root, relative)) (n : Nat) :
    (source.rerooted root (longRoot (n + 1))).hasPath = true ∧
      ∃ path, (source.rerooted root (longRoot (n + 1))).jsonPath = some path ∧ n ≤ path.length := by
  obtain ⟨path, behind, given, _, _⟩ := ArrayRoot.split?_ok cut
  have shown : (source.rerooted root (longRoot (n + 1))).jsonPath =
      some (longRoot (n + 1) ++ String.ofList (path.toList.drop root.length)) := by
    rw [Source.rerooted, given, Option.map_some]
  refine ⟨?_, _, shown, ?_⟩
  · have letters : (longRoot (n + 1) ++ String.ofList (path.toList.drop root.length)).toList =
        'a' :: (List.replicate n 'a' ++ ['[', '*', ']'] ++ path.toList.drop root.length) := by
      simp [longRoot, List.replicate_succ]
    have some := trimChars_ne_nil (show Text.isBlank 'a' = false by decide)
      (List.replicate n 'a' ++ ['[', '*', ']'] ++ path.toList.drop root.length)
    rw [Source.hasPath, shown]
    simp only [Text.trimString, letters, Bool.not_eq_true', ← Bool.not_eq_true, String.isEmpty_iff,
      String.ofList_eq_empty_iff]
    exact some
  · rw [String.length_append, longRoot, String.length_ofList, List.length_append, List.length_replicate]
    omega

/-- Where a subtree is written under a collection property, the text of an entry is as long as its root. -/
theorem le_write_rerooted (common : ArrayRoot.common? (PathTree.leavesOf (PathTree.build fields)) = some shared)
    {known last : TypeInfo} {node : PathTree.Branches}
    (renders : context.Renders known (PathTree.build fields) last node) {key : String} {children : PathTree.Branches}
    {property : PropertyInfo} (member : (key, .node children) ∈ node) (owned : last.property? key = some property)
    (collection : property.descriptor.isCollection = true) (n : Nat) :
    n ≤ (TypeScript.write 3 (.serialized (context.object (some known) (.fromEntry shared.relatives) 0
      (PathTree.replacedIn (rerootedIn (PathTree.build fields) shared.root (longRoot (n + 1)))
        (PathTree.build fields))))).length := by
  have long : LongPaths n (PathTree.replacedIn
      (rerootedIn (PathTree.build fields) shared.root (longRoot (n + 1))) (PathTree.build fields)) := by
    intro leaf listed
    rw [PathTree.leavesOf_replacedIn] at listed
    obtain ⟨mapping, inside, rfl⟩ := List.mem_map.mp listed
    obtain ⟨relative, cut⟩ := (ArrayRoot.collect_ok common).2 mapping inside
    rw [source_rerootedIn inside]
    exact hasPath_rerooted cut n
  obtain ⟨entry, within, shown⟩ := exists_long_member (.fromEntry shared.relatives) (PathTree.tidy_build fields) long
    renders member owned collection 0
  rw [object, TypeScript.write, TypeScript.write]
  exact Layout.le_append_left _ (Layout.le_append_right _
    (TypeScript.le_typedObject (mem_writeMembers within) (shown 4) _ 3))

theorem entries_rerooted_iff (context : EntityContext) (info : Option TypeInfo) (structured : format.isRow = false)
    (common : ArrayRoot.common? (PathTree.leavesOf (PathTree.build fields)) = some shared) :
    (∀ (target : Target) (root' : String), ArrayRoot.IsRoot root' → ∃ body : Except WriteFault String,
      (context.entityCollection format info fields).write target = body.map (target.arrayEntries shared.root) ∧
      (context.entityCollection format info (rerooted shared.root root' fields)).write target =
        body.map (target.arrayEntries root')) ↔
    ∀ known, info = some known → context.Direct known (PathTree.build fields) := by
  constructor
  · rintro same known rfl last node renders key children property member owned
    refine Bool.eq_false_iff.mpr fun collection => ?_
    -- Under a root longer than the whole text for an entry, the text for an entry would have to be as long.
    let plan := Plan.serialized (context.object (some known) (.fromEntry shared.relatives) 0 (PathTree.build fields))
    let n := (TypeScript.write 3 plan).length + 1
    obtain ⟨body, first, second⟩ := same .typescript (longRoot (n + 1)) (isRoot_longRoot (n + 1))
    rw [write_entityCollection structured common] at first
    rw [write_rerooted structured common (isRoot_longRoot (n + 1))] at second
    have sameText := Except.ok.inj ((eq_of_arrayEntries rfl first).symm.trans (eq_of_arrayEntries rfl second))
    have enough := le_write_rerooted common renders member owned collection n
    rw [← sameText] at enough
    exact Nat.not_succ_le_self _ enough
  · intro direct target root' isRoot
    refine ⟨_, write_entityCollection structured common target, ?_⟩
    rw [write_rerooted structured common isRoot target,
      object_replacedIn (sameReads_fromEntry (path_rerootedIn _ _ _) (fallback_rerootedIn _ _ _) _) direct]

/-! ## Jobs with peers -/

def staffCatalog : Catalog where
  types := [
    ⟨"job", [⟨"title", "Edm.String", true⟩, ⟨"peers", "Collection(graph.person)", true⟩], none⟩,
    ⟨"person", [⟨"name", "Edm.String", true⟩], none⟩]
  names_distinct := by decide

def textProperty (name memberName : String) : PropertyInfo :=
  ⟨name, memberName, ⟨false, Element.ofScalar ⟨"string", "string", "str"⟩ "a string"⟩, true⟩

def peersProperty : PropertyInfo :=
  ⟨"peers", "Peers", ⟨true, Element.ofComposite "person" (.ofName "person")⟩, true⟩

def personInfo : TypeInfo := ⟨"person", .ofName "person", [("name", textProperty "name" "Name")]⟩

def jobInfo : TypeInfo :=
  ⟨"job", .ofName "job", [("title", textProperty "title" "Title"), ("peers", peersProperty)]⟩

def titleMapping : FieldMapping := ⟨"title", { jsonPath := some "$.jobs[*].title" }⟩

def peerMapping (path : String) : FieldMapping := ⟨"peers.name", { jsonPath := some path }⟩

def peerFields : List FieldMapping := [titleMapping, peerMapping "$.jobs[*].peer"]

def leadProperty : PropertyInfo :=
  ⟨"lead", "Lead", ⟨false, Element.ofComposite "person" (.ofName "person")⟩, true⟩

def teamInfo : TypeInfo :=
  ⟨"team", .ofName "team", [("title", textProperty "title" "Title"), ("lead", leadProperty), ("peers", peersProperty)]⟩

def leadMapping : FieldMapping := ⟨"lead.name", { jsonPath := some "$.jobs[*].lead" }⟩

theorem direct_lead : (⟨[("team", teamInfo), ("person", personInfo)], {}⟩ : EntityContext).Direct teamInfo
    (PathTree.build [titleMapping, leadMapping]) := by
  have tree : PathTree.build [titleMapping, leadMapping] =
      [("title", .leaf titleMapping), ("lead", .node [("name", .leaf leadMapping)])] := rfl
  have owned : teamInfo.property? "lead" = some leadProperty := by decide
  rw [tree]
  intro last node renders key children property member own
  cases renders with
  | here =>
    obtain ⟨rfl, rfl⟩ : key = "lead" ∧ children = [("name", .leaf leadMapping)] := by simpa using member
    cases owned.symm.trans own
    rfl
  | under inside _ _ further =>
    obtain ⟨rfl, rfl⟩ : _ = "lead" ∧ _ = [("name", PathTree.leaf leadMapping)] := by simpa using inside
    cases further with
    | here => simp at member
    | under deeper => simp at deeper

theorem entries_rerooted_iff_lead :
    InputFormat.json.isRow = false ∧
    ArrayRoot.common? (PathTree.leavesOf (PathTree.build [titleMapping, leadMapping])) =
      some ⟨"$.jobs[*]", [("title", "title"), ("lead.name", "lead")]⟩ ∧
    let context : EntityContext := ⟨[("team", teamInfo), ("person", personInfo)], {}⟩
    ∀ (target : Target) (root' : String), ArrayRoot.IsRoot root' → ∃ body : Except WriteFault String,
      (context.entityCollection .json (some teamInfo) [titleMapping, leadMapping]).write target =
        body.map (target.arrayEntries "$.jobs[*]") ∧
      (context.entityCollection .json (some teamInfo)
          (rerooted "$.jobs[*]" root' [titleMapping, leadMapping])).write target =
        body.map (target.arrayEntries root') := by
  have common : ArrayRoot.common? (PathTree.leavesOf (PathTree.build [titleMapping, leadMapping])) =
      some ⟨"$.jobs[*]", [("title", "title"), ("lead.name", "lead")]⟩ := by decide +kernel
  refine ⟨rfl, common, (entries_rerooted_iff ⟨[("team", teamInfo), ("person", personInfo)], {}⟩ (some teamInfo) rfl
    common).mpr ?_⟩
  intro known given
  cases Option.some.inj given
  exact direct_lead

theorem object_peers {context : EntityContext} (known : KeyedList.get? "person" context.types = some personInfo)
    (reader : LeafReader) (mapping : FieldMapping) (path : String) :
    context.object (some jobInfo) reader 0
        [("title", .leaf mapping), ("peers", .node [("name", .leaf (peerMapping path))])] =
      .typed jobInfo.names [
        (textProperty "title" "Title", context.leafMember reader (textProperty "title" "Title") mapping),
        (peersProperty, .mapped (context.leaf.read (peerMapping path).source) (.ofName "person") true
          (.typed personInfo.names [(textProperty "name" "Name",
            .converted (textProperty "name" "Name").descriptor .element)]))] := by
  have title : jobInfo.property? "title" = some (textProperty "title" "Title") := by decide
  have peers : jobInfo.property? "peers" = some peersProperty := by decide
  have name : personInfo.property? "name" = some (textProperty "name" "Name") := by decide
  have nested : context.nestedInfo? peersProperty = some personInfo := known
  simp only [object, typedEntries, title, peers, name, typedMember, nested]
  rfl

theorem many_of_write {level : Nat} {names element : DisplayNames} {first second : PropertyInfo} {value body : Plan}
    {read read' : LeafRead}
    (same : TypeScript.write level (.serialized (.typed names
        [(first, value), (second, .mapped read element true body)])) =
      TypeScript.write level (.serialized (.typed names
        [(first, value), (second, .mapped read' element true body)]))) :
    TypeScript.many read = TypeScript.many read' := by
  have text (read : LeafRead) : TypeScript.write level (.serialized (.typed names
        [(first, value), (second, .mapped read element true body)])) =
      "JSON.stringify(" ++ TypeScript.typedObject names.ts [
        (first.name, TypeScript.write (level + 1) value),
        (second.name, TypeScript.mapped (TypeScript.many read) (TypeScript.write (level + 3) body) element.ts true
          (level + 1))] level ++ ")" := rfl
  rw [text, text] at same
  generalize TypeScript.many read = a, TypeScript.many read' = b at same ⊢
  have object := eq_of_wrapped same
  simp only [TypeScript.typedObject, TypeScript.objectLiteral, List.isEmpty_cons, Bool.false_eq_true, if_false,
    List.map_cons, List.map_nil, String.intercalate_cons_cons, String.intercalate_singleton, TypeScript.mapped, if_true,
    Layout.lines, toString] at object
  simp only [String.append_assoc, String.append_right_inj] at object
  exact (String.append_left_inj _).mp object

theorem many_peer {path : String} (pathed : (peerMapping path).source.hasPath = true) :
    TypeScript.many (({} : LeafLimits).read (peerMapping path).source) =
      "parseStringCollection(readSourceValue(row, " ++ Text.quote path ++ "))" := by
  have literal : TypeScript.sourceLiteral (peerMapping path).source = Text.quote path := by
    rw [TypeScript.sourceLiteral, pathed, peerMapping]
  rw [← literal]
  rfl

/-- Peers are read from the whole row, by a path that names the root. -/
theorem peers_entries_differ : ∃ bundle,
    Bundle.build staffCatalog {} "job" = .ok bundle ∧ KeyedList.get? "job" bundle.typeMap = some jobInfo ∧
    ArrayRoot.common? (PathTree.leavesOf (PathTree.build peerFields)) =
      some ⟨"$.jobs[*]", [("title", "title"), ("peers.name", "peer")]⟩ ∧
    ArrayRoot.IsRoot "$.positions[*]" ∧
    ¬ ∃ body : Except WriteFault String,
      ((⟨bundle.typeMap, {}⟩ : EntityContext).entityCollection .json (some jobInfo) peerFields).write .typescript =
        body.map (Target.typescript.arrayEntries "$.jobs[*]") ∧
      ((⟨bundle.typeMap, {}⟩ : EntityContext).entityCollection .json (some jobInfo)
          (rerooted "$.jobs[*]" "$.positions[*]" peerFields)).write .typescript =
        body.map (Target.typescript.arrayEntries "$.positions[*]") := by
  have view : (Bundle.build staffCatalog {} "job").map (fun bundle =>
      (KeyedList.get? "job" bundle.typeMap, KeyedList.get? "person" bundle.typeMap)) =
      .ok (some jobInfo, some personInfo) := by decide +kernel
  obtain ⟨bundle, built, shown⟩ := Outcome.map_eq_ok.mp view
  obtain ⟨job, person⟩ := Prod.mk.inj shown
  have common : ArrayRoot.common? (PathTree.leavesOf (PathTree.build peerFields)) =
      some ⟨"$.jobs[*]", [("title", "title"), ("peers.name", "peer")]⟩ := by decide +kernel
  have isRoot : ArrayRoot.IsRoot "$.positions[*]" := by decide +kernel
  refine ⟨bundle, built, job, common, isRoot, ?_⟩
  rintro ⟨body, first, second⟩
  have tree : PathTree.build peerFields =
      [("title", .leaf titleMapping), ("peers", .node [("name", .leaf (peerMapping "$.jobs[*].peer"))])] := rfl
  have moved {f : FieldMapping → FieldMapping} {title : FieldMapping} {peer : String} (first : f titleMapping = title)
      (second : f (peerMapping "$.jobs[*].peer") = peerMapping peer) :
      PathTree.replacedIn f (PathTree.build peerFields) =
        [("title", .leaf title), ("peers", .node [("name", .leaf (peerMapping peer))])] := by
    simp only [tree, PathTree.replacedIn, PathTree.replaced, first, second]
  have title : rerootedIn (PathTree.build peerFields) "$.jobs[*]" "$.positions[*]"
      titleMapping = ⟨"title", { jsonPath := some "$.positions[*].title" }⟩ := by decide +kernel
  have peer : rerootedIn (PathTree.build peerFields) "$.jobs[*]" "$.positions[*]"
      (peerMapping "$.jobs[*].peer") = peerMapping "$.positions[*].peer" := by decide +kernel
  rw [write_entityCollection rfl common, tree, object_peers person] at first
  rw [write_rerooted rfl common isRoot, moved title peer, object_peers person] at second
  have same := Except.ok.inj ((eq_of_arrayEntries rfl first).symm.trans (eq_of_arrayEntries rfl second))
  -- The list under the collection property is read by its whole path, and the root stands in front of it.
  have reads := many_of_write same
  rw [many_peer (by decide +kernel), many_peer (by decide +kernel)] at reads
  exact absurd (eq_of_wrapped reads) (by decide +kernel)

end EntityContext

end ProfileConnector
