import Mathlib.Data.List.TakeWhile
import ProfileConnector.Proofs.Path.Cut
import ProfileConnector.Proofs.PathTree

/-!
Mappings whose sources are replaced. The tree of such mappings is the tree with other leaves, and
under another array root each leaf has the same path from an element on.
-/

namespace ProfileConnector

/-! ## Trees with other leaves -/

namespace PathTree

mutual

def replaced (f : FieldMapping → FieldMapping) : PathTree → PathTree
  | .leaf mapping => .leaf (f mapping)
  | .node children => .node (replacedIn f children)

def replacedIn (f : FieldMapping → FieldMapping) : List (String × PathTree) → List (String × PathTree)
  | [] => []
  | (key, child) :: rest => (key, replaced f child) :: replacedIn f rest

end

variable {f : FieldMapping → FieldMapping}

theorem get?_replacedIn (key : String) (branches : Branches) :
    KeyedList.get? key (replacedIn f branches) = (KeyedList.get? key branches).map (replaced f) := by
  induction branches with
  | nil => simp [replacedIn, KeyedList.get?]
  | cons entry rest ih =>
    obtain ⟨other, child⟩ := entry
    by_cases same : other = key <;> simp [replacedIn, KeyedList.get?, same, ih]

theorem put_replacedIn (key : String) (child : PathTree) (branches : Branches) :
    KeyedList.put key (replaced f child) (replacedIn f branches) = replacedIn f (KeyedList.put key child branches) := by
  induction branches with
  | nil => simp [replacedIn, KeyedList.put]
  | cons entry rest ih =>
    obtain ⟨other, inner⟩ := entry
    by_cases same : other = key <;> simp [replacedIn, KeyedList.put, same, ih]

theorem branchesAt_replacedIn (key : String) (branches : Branches) :
    branchesAt key (replacedIn f branches) = replacedIn f (branchesAt key branches) := by
  simp only [branchesAt, get?_replacedIn]
  cases KeyedList.get? key branches with
  | none => simp [replacedIn]
  | some child => cases child <;> simp [replaced, replacedIn]

theorem insert_replacedIn (mapping : FieldMapping) (rest : List String) (branches : Branches) :
    insert (f mapping) rest (replacedIn f branches) = replacedIn f (insert mapping rest branches) := by
  match rest with
  | [] => rfl
  | [key] => rw [insert, insert, ← put_replacedIn, replaced]
  | key :: next :: rest =>
    change KeyedList.put key (.node (insert (f mapping) (next :: rest) (branchesAt key (replacedIn f branches))))
        (replacedIn f branches) =
      replacedIn f (KeyedList.put key (.node (insert mapping (next :: rest) (branchesAt key branches))) branches)
    rw [branchesAt_replacedIn, insert_replacedIn, ← put_replacedIn, replaced]

theorem build_map (samePath : ∀ mapping, (f mapping).path = mapping.path) (fields : List FieldMapping) :
    build (fields.map f) = replacedIn f (build fields) := by
  have grown (branches : Branches) :
      (fields.map f).foldl (fun branches mapping => insert mapping (segments mapping.path) branches)
          (replacedIn f branches) =
        replacedIn f (fields.foldl (fun branches mapping => insert mapping (segments mapping.path) branches) branches) := by
    induction fields generalizing branches with
    | nil => rfl
    | cons first rest ih => rw [List.map_cons, List.foldl_cons, List.foldl_cons, samePath, insert_replacedIn, ih]
  have whole := grown []
  rwa [replacedIn] at whole

theorem leavesOf_replacedIn (branches : Branches) :
    leavesOf (replacedIn f branches) = (leavesOf branches).map f := by
  induction branches using branches_induction with
  | nil => simp [replacedIn, leavesOf]
  | leaf key mapping rest others => simp [replacedIn, replaced, leavesOf, leaves, others]
  | node key children rest below others => simp [replacedIn, replaced, leavesOf, leaves, below, others]

end PathTree

/-! ## Array roots -/

/-- The text has one wildcard, and ends in it. -/
def ArrayRoot.IsRoot (root : String) : Prop :=
  Path.cutAtWildcard (Text.ofString root) = some (Text.ofString root, [])

instance (root : String) : Decidable (ArrayRoot.IsRoot root) := inferInstanceAs (Decidable (_ = _))

namespace Source

def rerooted (root root' : String) (source : Source) : Source :=
  { source with jsonPath := source.jsonPath.map fun path => root' ++ String.ofList (path.toList.drop root.length) }

end Source

namespace ArrayRoot

variable {root root' relative : String} {source : Source}

theorem split?_ok (cut : split? source = some (root, relative)) : ∃ path behind,
    source.jsonPath = some path ∧ path.toList = root.toList ++ behind ∧
      Path.cutAtWildcard (Text.ofString path) = some (Text.ofString root, Text.ofChars behind) := by
  obtain ⟨path, given, found⟩ := Option.bind_eq_some_iff.mp cut
  obtain ⟨⟨front, after⟩, splits, same⟩ := Option.map_eq_some_iff.mp found
  obtain ⟨⟨front', back⟩, cuts, parts⟩ := Option.map_eq_some_iff.mp splits
  cases parts
  cases same
  obtain ⟨first, behind, whole, rfl, rfl⟩ := List.map_eq_append_iff.mp (Path.cutAtWildcard_ok cuts)
  have shown : (Text.toString (first.map CodePoint.scalar)) = String.ofList first := by
    rw [Text.toString]
    exact congrArg String.ofList (Text.toChars_ofChars first)
  have spelled : Text.ofString (String.ofList first) = first.map CodePoint.scalar := by simp [Text.ofString, Text.ofChars]
  refine ⟨path, behind, given, ?_, ?_⟩
  · rw [shown, String.toList_ofList, whole]
  · rw [shown, spelled]
    exact cuts

theorem split?_rerooted (isRoot : IsRoot root') (cut : split? source = some (root, relative)) :
    split? (source.rerooted root root') = some (root', relative) := by
  obtain ⟨path, behind, given, whole, cuts⟩ := split?_ok cut
  have after : path.toList.drop root.length = behind := by
    rw [whole, ← String.length_toList, List.drop_left]
  have spelled : Text.ofString (root' ++ String.ofList behind) = Text.ofString root' ++ Text.ofChars behind := by
    simp [Text.ofString, Text.ofChars]
  have cuts' := Path.cutAtWildcard_append isRoot (Text.ofChars behind)
  rw [split?, given, Option.bind_some, Path.splitArrayRoot, cuts] at cut
  rw [split?, Source.rerooted, given, Option.map_some, Option.bind_some, after, spelled, Path.splitArrayRoot, cuts']
  simpa [Text.toString_ofString] using cut

theorem collect_cons_ok {found : Option ArrayRoot} {leaf : FieldMapping} {rest : List FieldMapping}
    {shared : ArrayRoot} (collected : collect found (leaf :: rest) = some shared) :
    ∃ root relative, split? leaf.source = some (root, relative) ∧ (∀ known ∈ found, known.root = root) ∧
      collect (some ⟨root, KeyedList.put leaf.path relative ((found.map (·.relatives)).getD [])⟩) rest = some shared := by
  rw [collect] at collected
  cases cut : split? leaf.source with
  | none => simp [cut] at collected
  | some parts =>
    obtain ⟨root, relative⟩ := parts
    simp only [cut] at collected
    cases found with
    | none => exact ⟨root, relative, rfl, nofun, collected⟩
    | some known =>
      simp only [Option.ite_none_right_eq_some] at collected
      obtain ⟨agree, continued⟩ := collected
      refine ⟨root, relative, rfl, fun other given => ?_, ?_⟩
      · cases given
        exact agree
      · simpa [agree] using continued

theorem collect_ok {found : Option ArrayRoot} {leaves : List FieldMapping} {shared : ArrayRoot}
    (collected : collect found leaves = some shared) :
    (∀ known, found = some known → known.root = shared.root) ∧
      ∀ leaf ∈ leaves, ∃ relative, split? leaf.source = some (shared.root, relative) := by
  -- The root that is known so far is handed on; a leaf with another root would end the search.
  induction leaves generalizing found with
  | nil =>
    rw [collect] at collected
    refine ⟨fun known given => ?_, fun leaf member => absurd member List.not_mem_nil⟩
    rw [Option.some.inj (given.symm.trans collected)]
  | cons leaf rest ih =>
    obtain ⟨root, relative, cut, agree, continued⟩ := collect_cons_ok collected
    obtain ⟨same, others⟩ := ih continued
    have equal : root = shared.root := same _ rfl
    refine ⟨fun known given => (agree known given).trans equal, fun other member => ?_⟩
    rcases List.mem_cons.mp member with rfl | later
    · exact ⟨relative, equal ▸ cut⟩
    · exact others other later

theorem collect_map {f : FieldMapping → FieldMapping} {leaves : List FieldMapping}
    (samePath : ∀ mapping, (f mapping).path = mapping.path)
    (cuts : ∀ leaf ∈ leaves, ∃ relative, split? leaf.source = some (root, relative) ∧
      split? (f leaf).source = some (root', relative))
    {found : Option ArrayRoot} (known : ∀ shared, found = some shared → shared.root = root) :
    collect (found.map fun shared => { shared with root := root' }) (leaves.map f) =
      (collect found leaves).map fun shared => { shared with root := root' } := by
  induction leaves generalizing found with
  | nil => rfl
  | cons leaf rest ih =>
    obtain ⟨relative, cut, cut'⟩ := cuts leaf List.mem_cons_self
    have others := fun found => @ih (fun leaf member => cuts leaf (List.mem_cons_of_mem _ member)) found
    rw [List.map_cons, collect, collect, cut, cut']
    cases found with
    | none =>
      simp only [Option.map_none, samePath]
      exact others (some ⟨root, [(leaf.path, relative)]⟩) fun shared given => by
        cases given
        rfl
    | some shared =>
      have same : shared.root = root := known shared rfl
      simp only [Option.map_some, samePath, same, if_true]
      exact others (some ⟨root, KeyedList.put leaf.path relative shared.relatives⟩) fun other given => by
        cases given
        rfl

theorem common?_map {f : FieldMapping → FieldMapping} {leaves : List FieldMapping} {shared : ArrayRoot}
    (samePath : ∀ mapping, (f mapping).path = mapping.path) (isRoot : IsRoot root')
    (rerooted : ∀ leaf ∈ leaves, (f leaf).source = leaf.source.rerooted shared.root root')
    (common : common? leaves = some shared) :
    common? (leaves.map f) = some { shared with root := root' } := by
  have cuts : ∀ leaf ∈ leaves, ∃ relative, split? leaf.source = some (shared.root, relative) ∧
      split? (f leaf).source = some (root', relative) := by
    intro leaf member
    obtain ⟨relative, cut⟩ := (collect_ok common).2 leaf member
    rw [rerooted leaf member]
    exact ⟨relative, cut, split?_rerooted isRoot cut⟩
  have mapped := collect_map samePath cuts fun _ (given : none = some _) => by cases given
  rw [Option.map_none] at mapped
  rw [common?, mapped, ← common?, common, Option.map_some]

end ArrayRoot

end ProfileConnector
