import Mathlib.Data.List.Nodup
import ProfileConnector.Catalog.Reach
import ProfileConnector.Proofs.Outcome

/-!
Reachability in a catalog, said without rounds: a type leads to its base and to what its own
properties refer to, and the names reachable from some seeds are closed under that. Repeated rounds
over the growing list end for every catalog, and where they end without a fault they have found the
reachable names, each once, the known seeds first.
-/

namespace ProfileConnector.Catalog

open Outcome

variable {catalog : Catalog}

/-! ## The specification -/

/-- One type leads to another name: to its base, which an empty text does not name, or by a property. -/
inductive Leads (catalog : Catalog) : String → String → Prop
  | base {name base : String} {type : CatalogType} (composite : catalog.isEnum name = false)
      (found : catalog.find? name = some type) (declared : type.base = some base)
      (named : base ≠ "") (known : catalog.has base = true) : Leads catalog name (catalog.resolve base)
  | property {name target : String} {type : CatalogType} {property : CatalogProperty}
      (composite : catalog.isEnum name = false) (found : catalog.find? name = some type)
      (own : property ∈ type.properties)
      (refers : catalog.referencedName name property = .ok (some target)) : Leads catalog name target

/-- The names that can be reached from some seeds, the seeds themselves resolved once. -/
inductive Reachable (catalog : Catalog) (seeds : List String) : String → Prop
  | seed {seed : String} (listed : seed ∈ seeds)
      (known : catalog.has (catalog.resolve seed) = true ∨ catalog.isEnum (catalog.resolve seed) = true) :
      Reachable catalog seeds (catalog.resolve seed)
  | step {name target : String} (reachable : Reachable catalog seeds name)
      (leads : Leads catalog name target) : Reachable catalog seeds target

/-- A composite type declares a property of its own whose declared type is refused with a fault. -/
def Refuses (catalog : Catalog) (name : String) (fault : CatalogFault) : Prop :=
  catalog.isEnum name = false ∧ ∃ type, catalog.find? name = some type ∧
    ∃ property ∈ type.properties, catalog.referencedName name property = .error fault

/-- Rounds without a bound: each round runs over all names so far, and the first that adds none is the last. -/
inductive Settles (catalog : Catalog) : List String → Except CatalogFault (List String) → Prop
  | failed {reached : List String} {fault : CatalogFault}
      (round : catalog.extend reached reached = .error fault) : Settles catalog reached (.error fault)
  | settled {reached more : List String} (round : catalog.extend reached reached = .ok more)
      (same : more.length = reached.length) : Settles catalog reached (.ok reached)
  | grown {reached more : List String} {outcome : Except CatalogFault (List String)}
      (round : catalog.extend reached reached = .ok more) (new : more.length ≠ reached.length)
      (later : Settles catalog more outcome) : Settles catalog reached outcome

/-! ## Lists that names are added to -/

theorem mem_adding {names : List String} {name other : String} :
    other ∈ adding names name ↔ other ∈ names ∨ other = name := by
  unfold adding
  split
  · rename_i present
    exact ⟨Or.inl, fun h => h.elim id fun equal => equal ▸ present⟩
  · simp

theorem nodup_adding {names : List String} (distinct : names.Nodup) (name : String) :
    (adding names name).Nodup := by
  unfold adding
  split
  · exact distinct
  · rename_i absent
    refine List.nodup_append.mpr ⟨distinct, List.nodup_singleton name, ?_⟩
    intro a member b single equal
    rw [List.mem_singleton] at single
    exact absent (single ▸ equal ▸ member)

theorem prefix_adding (names : List String) (name : String) : names <+: adding names name := by
  unfold adding
  split
  · exact List.prefix_rfl
  · exact List.prefix_append names [name]

theorem mem_foldl_adding {found names : List String} {name : String} :
    name ∈ found.foldl adding names ↔ name ∈ names ∨ name ∈ found := by
  induction found generalizing names with
  | nil => simp
  | cons first rest ih =>
    rw [List.foldl_cons, ih, mem_adding, List.mem_cons, or_assoc]

theorem nodup_foldl_adding {names : List String} (distinct : names.Nodup) (found : List String) :
    (found.foldl adding names).Nodup := by
  induction found generalizing names with
  | nil => exact distinct
  | cons first rest ih => exact ih (nodup_adding distinct first)

theorem prefix_foldl_adding (found names : List String) : names <+: found.foldl adding names := by
  induction found generalizing names with
  | nil => exact List.prefix_rfl
  | cons first rest ih => exact (prefix_adding names first).trans (ih _)

theorem foldl_adding_eq (found names : List String) :
    found.foldl adding names = names ++ (found.filter (· ∉ names)).eraseDups := by
  induction found generalizing names with
  | nil => simp
  | cons first rest ih =>
    rw [List.foldl_cons, ih]
    by_cases present : first ∈ names
    · simp [adding, present]
    · have later : rest.filter (· ∉ names ++ [first]) = (rest.filter (· ∉ names)).filter (!· == first) := by
        rw [List.filter_filter]
        refine List.filter_congr fun other _ => ?_
        by_cases equal : other = first <;> simp [equal]
      rw [adding, if_neg present, later, List.filter_cons_of_pos (by simpa using present),
        List.eraseDups_cons, List.append_assoc, List.singleton_append]

theorem knownSeeds_eq (catalog : Catalog) (seeds : List String) :
    catalog.knownSeeds seeds =
      ((seeds.map catalog.resolve).filter fun name => catalog.has name || catalog.isEnum name).eraseDups := by
  rw [knownSeeds, foldl_adding_eq]
  simp

/-! ## One round -/

theorem get_eq_ok {name : String} {type : CatalogType} :
    catalog.get name = .ok type ↔ catalog.find? name = some type := by
  unfold get
  cases catalog.find? name <;> simp

theorem get_eq_error {name : String} {fault : CatalogFault} :
    catalog.get name = .error fault ↔ catalog.find? name = none ∧ fault = .typeNotFound name := by
  unfold get
  cases catalog.find? name <;> simp [eq_comm]

theorem baseName?_eq_some {type : CatalogType} {target : String} :
    catalog.baseName? type = some target ↔
      ∃ base, type.base = some base ∧ base ≠ "" ∧ catalog.has base = true ∧ catalog.resolve base = target := by
  unfold baseName?
  cases type.base with
  | none => simp
  | some base => simp [and_assoc]

theorem successors_ok {name : String} {found : List String} (listed : catalog.successors name = .ok found) :
    (∀ target, target ∈ found ↔ catalog.Leads name target) ∧ ∀ fault, ¬ catalog.Refuses name fault := by
  unfold successors at listed
  cases enumeration : catalog.isEnum name with
  | true =>
    simp only [enumeration, if_true, Except.ok.injEq] at listed
    subst listed
    refine ⟨fun target => ⟨fun absent => absurd absent List.not_mem_nil, ?_⟩, ?_⟩
    · rintro (⟨composite, _, _, _, _⟩ | ⟨composite, _, _, _⟩) <;> simp [enumeration] at composite
    · rintro fault ⟨composite, _⟩
      simp [enumeration] at composite
  | false =>
    simp only [enumeration, Bool.false_eq_true, if_false, bind_eq_ok] at listed
    obtain ⟨type, gotten, references, mapped, result⟩ := listed
    have found := get_eq_ok.mp gotten
    cases result
    constructor
    · intro target
      simp only [List.mem_append, Option.mem_toList, List.mem_filterMap, id_eq, exists_eq_right]
      rw [baseName?_eq_some, mem_of_mapM mapped]
      constructor
      · rintro (⟨base, declared, named, known, rfl⟩ | ⟨property, own, refers⟩)
        · exact .base enumeration found declared named known
        · exact .property enumeration found own refers
      · rintro (⟨_, found', declared, named, known⟩ | ⟨_, found', own, refers⟩)
        all_goals cases found.symm.trans found'
        · exact Or.inl ⟨_, declared, named, known, rfl⟩
        · exact Or.inr ⟨_, own, refers⟩
    · rintro fault ⟨_, type', found', property, own, refused⟩
      cases found.symm.trans found'
      obtain ⟨value, _, fine⟩ := mapM_total mapped own
      cases refused.symm.trans fine

theorem successors_error {name : String} {fault : CatalogFault}
    (failed : catalog.successors name = .error fault) :
    catalog.Refuses name fault ∨
      (catalog.isEnum name = false ∧ catalog.find? name = none ∧ fault = .typeNotFound name) := by
  unfold successors at failed
  cases enumeration : catalog.isEnum name with
  | true => simp [enumeration] at failed
  | false =>
    simp only [enumeration, Bool.false_eq_true, if_false] at failed
    rcases bind_eq_error.mp failed with gotten | ⟨type, gotten, remaining⟩
    · exact Or.inr ⟨rfl, get_eq_error.mp gotten⟩
    · rcases bind_eq_error.mp remaining with mapped | ⟨_, _, impossible⟩
      · exact Or.inl ⟨enumeration, type, get_eq_ok.mp gotten, mapM_eq_error mapped⟩
      · cases impossible

theorem extend_eq (catalog : Catalog) (reached names : List String) :
    catalog.extend reached names =
      (names.mapM catalog.successors).map fun found => found.flatten.foldl adding reached := by
  induction names generalizing reached with
  | nil => rfl
  | cons name rest ih =>
    rw [extend, List.mapM_cons]
    cases catalog.successors name with
    | error fault => rfl
    | ok found =>
      rw [ok_bind, ok_bind, ih]
      cases rest.mapM catalog.successors with
      | error fault => rfl
      | ok others => simp

theorem extend_ok {reached more : List String} (round : catalog.extend reached reached = .ok more) :
    (reached <+: more) ∧ (reached.Nodup → more.Nodup) ∧
      (∀ name ∈ more, name ∈ reached ∨ ∃ source ∈ reached, catalog.Leads source name) ∧
      (∀ source ∈ reached, (∀ fault, ¬ catalog.Refuses source fault) ∧
        ∀ name, catalog.Leads source name → name ∈ more) := by
  rw [extend_eq, map_eq_ok] at round
  obtain ⟨found, mapped, rfl⟩ := round
  refine ⟨prefix_foldl_adding _ _, fun distinct => nodup_foldl_adding distinct _, ?_, ?_⟩
  · intro name member
    rcases mem_foldl_adding.mp member with old | new
    · exact Or.inl old
    · obtain ⟨names, listed, inside⟩ := List.mem_flatten.mp new
      obtain ⟨source, known, value⟩ := (mem_of_mapM mapped names).mp listed
      exact Or.inr ⟨source, known, ((successors_ok value).1 name).mp inside⟩
  · intro source known
    obtain ⟨names, listed, value⟩ := mapM_total mapped known
    refine ⟨(successors_ok value).2, fun name leads => mem_foldl_adding.mpr (Or.inr ?_)⟩
    exact List.mem_flatten.mpr ⟨names, listed, ((successors_ok value).1 name).mpr leads⟩

theorem extend_error {reached : List String} {fault : CatalogFault}
    (round : catalog.extend reached reached = .error fault) :
    ∃ name ∈ reached, catalog.Refuses name fault ∨
      (catalog.isEnum name = false ∧ catalog.find? name = none ∧ fault = .typeNotFound name) := by
  have failed : reached.mapM catalog.successors = .error fault := by
    rw [extend_eq] at round
    cases mapped : reached.mapM catalog.successors with
    | error other =>
      rw [mapped] at round
      cases round
      rfl
    | ok found =>
      rw [mapped] at round
      cases round
  obtain ⟨name, member, failure⟩ := mapM_eq_error failed
  exact ⟨name, member, successors_error failure⟩

/-! ## All rounds -/

/-- What every round keeps: the known seeds stand first, no name comes twice, and all are reachable. -/
structure Explored (catalog : Catalog) (seeds reached : List String) : Prop where
  seeded : catalog.knownSeeds seeds <+: reached
  distinct : reached.Nodup
  reachable : ∀ name ∈ reached, catalog.Reachable seeds name

theorem mem_knownSeeds {seeds : List String} {name : String} :
    name ∈ catalog.knownSeeds seeds ↔
      ∃ seed ∈ seeds, (catalog.has (catalog.resolve seed) = true ∨ catalog.isEnum (catalog.resolve seed) = true) ∧
        catalog.resolve seed = name := by
  simp only [knownSeeds, mem_foldl_adding, List.not_mem_nil, false_or, List.mem_filter, List.mem_map,
    Bool.or_eq_true]
  constructor
  · rintro ⟨⟨seed, listed, rfl⟩, known⟩
    exact ⟨seed, listed, known, rfl⟩
  · rintro ⟨seed, listed, known, rfl⟩
    exact ⟨⟨seed, listed, rfl⟩, known⟩

theorem explored_knownSeeds (catalog : Catalog) (seeds : List String) :
    Explored catalog seeds (catalog.knownSeeds seeds) where
  seeded := List.prefix_rfl
  distinct := nodup_foldl_adding List.nodup_nil _
  reachable := by
    intro name member
    obtain ⟨seed, listed, known, rfl⟩ := mem_knownSeeds.mp member
    exact .seed listed known

theorem Explored.extend {seeds reached more : List String} (explored : Explored catalog seeds reached)
    (round : catalog.extend reached reached = .ok more) : Explored catalog seeds more := by
  obtain ⟨longer, distinct, sound, _⟩ := extend_ok round
  refine ⟨explored.seeded.trans longer, distinct explored.distinct, fun name member => ?_⟩
  rcases sound name member with old | ⟨source, known, leads⟩
  · exact explored.reachable name old
  · exact .step (explored.reachable source known) leads

theorem Settles.ok {seeds reached names : List String} {outcome : Except CatalogFault (List String)}
    (settles : catalog.Settles reached outcome) (explored : Explored catalog seeds reached)
    (done : outcome = .ok names) :
    Explored catalog seeds names ∧ ∀ source ∈ names, (∀ fault, ¬ catalog.Refuses source fault) ∧
      ∀ name, catalog.Leads source name → name ∈ names := by
  induction settles with
  | failed round => cases done
  | settled round same =>
    cases done
    obtain ⟨longer, _, _, complete⟩ := extend_ok round
    obtain rfl := longer.eq_of_length same.symm
    exact ⟨explored, complete⟩
  | grown round new later ih => exact ih (explored.extend round) done

theorem Settles.successors {reached names : List String} {outcome : Except CatalogFault (List String)}
    (settles : catalog.Settles reached outcome) (done : outcome = .ok names) :
    ∀ name ∈ names, ∃ found, catalog.successors name = .ok found := by
  induction settles with
  | failed round => cases done
  | settled round same =>
    cases done
    rw [extend_eq, map_eq_ok] at round
    obtain ⟨found, mapped, _⟩ := round
    intro name member
    obtain ⟨listed, _, value⟩ := mapM_total mapped member
    exact ⟨listed, value⟩
  | grown round new later ih => exact ih done

theorem Settles.error {seeds reached : List String} {fault : CatalogFault}
    {outcome : Except CatalogFault (List String)}
    (settles : catalog.Settles reached outcome) (explored : Explored catalog seeds reached)
    (failed : outcome = .error fault) :
    ∃ name, catalog.Reachable seeds name ∧ (catalog.Refuses name fault ∨
      (catalog.isEnum name = false ∧ catalog.find? name = none ∧ fault = .typeNotFound name)) := by
  induction settles with
  | failed round =>
    cases failed
    obtain ⟨name, member, cause⟩ := extend_error round
    exact ⟨name, explored.reachable name member, cause⟩
  | settled round same => cases failed
  | grown round new later ih => exact ih (explored.extend round) failed

theorem Settles.unique {reached : List String} {first second : Except CatalogFault (List String)}
    (one : catalog.Settles reached first) (other : catalog.Settles reached second) : first = second := by
  -- A round has one outcome, so both runs go on by the same rule.
  induction one with
  | failed round =>
    cases other with
    | failed round' => exact round.symm.trans round'
    | settled round' same => cases round.symm.trans round'
    | grown round' new later => cases round.symm.trans round'
  | settled round same =>
    cases other with
    | failed round' => cases round.symm.trans round'
    | settled round' same' => rfl
    | grown round' new later =>
      cases round.symm.trans round'
      exact absurd same new
  | grown round new later ih =>
    cases other with
    | failed round' => cases round.symm.trans round'
    | settled round' same =>
      cases round.symm.trans round'
      exact absurd same new
    | grown round' new' later' =>
      cases round.symm.trans round'
      exact ih later'

/-! ## The rounds end -/

def knowable (catalog : Catalog) : List String :=
  catalog.types.map (·.name) ++ KeyedList.keys catalog.enums ++ KeyedList.keys catalog.aliases

theorem length_knowable (catalog : Catalog) : catalog.knowable.length = catalog.nameCount := by
  simp [knowable, nameCount, KeyedList.keys, Nat.add_assoc]

theorem typeNamed?_isSome {name : String} :
    (catalog.typeNamed? name).isSome = true ↔ name ∈ catalog.types.map (·.name) := by
  simp [typeNamed?, List.find?_isSome]

theorem mem_types_of_find? {name : String} {type : CatalogType} (found : catalog.find? name = some type) :
    type ∈ catalog.types :=
  List.mem_of_find?_eq_some found

theorem name_of_typeNamed? {name : String} {type : CatalogType} (known : catalog.typeNamed? name = some type) :
    type.name = name := by
  simpa using List.find?_some known

theorem name_of_find? {name : String} {type : CatalogType} (found : catalog.find? name = some type) :
    type.name = catalog.resolve name := name_of_typeNamed? found

theorem has_of_find? {name : String} {type : CatalogType} (found : catalog.find? name = some type) :
    catalog.has name = true := by
  rw [has, found]
  rfl

theorem mem_knowable_of_has {name : String} (known : catalog.has name = true) : name ∈ catalog.knowable := by
  unfold knowable
  cases aliased : KeyedList.get? name catalog.aliases with
  | some target =>
    exact List.mem_append_right _ (KeyedList.mem_keys_of_get? aliased)
  | none =>
    have direct : catalog.resolve name = name := by simp [resolve, aliased]
    rw [has, find?, direct, typeNamed?_isSome] at known
    exact List.mem_append_left _ (List.mem_append_left _ known)

theorem mem_knowable_of_isEnum {name : String} (known : catalog.isEnum name = true) :
    name ∈ catalog.knowable := by
  obtain ⟨members, found⟩ := Option.isSome_iff_exists.mp known
  exact List.mem_append_left _ (List.mem_append_right _ (KeyedList.mem_keys_of_get? found))

theorem mem_knowable_resolve {name : String} (known : catalog.has name = true) :
    catalog.resolve name ∈ catalog.knowable :=
  List.mem_append_left _ (List.mem_append_left _ (typeNamed?_isSome.mp known))

theorem referencedName_known {owner target : String} {property : CatalogProperty}
    (refers : catalog.referencedName owner property = .ok (some target)) :
    catalog.isEnum target = true ∨ catalog.has target = true := by
  simp only [referencedName] at refers
  split at refers
  · split at refers <;> cases refers
  · split at refers
    · cases refers
    · split at refers
      · cases refers
      · rename_i name _
        cases known : catalog.isEnum name || catalog.has name with
        | false => simp [known] at refers
        | true =>
          obtain rfl : name = target := by simpa [known] using refers
          simpa using known

theorem Leads.knowable {name target : String} (leads : catalog.Leads name target) :
    target ∈ catalog.knowable := by
  cases leads with
  | base composite found declared named known => exact mem_knowable_resolve known
  | property composite found own refers =>
    exact (referencedName_known refers).elim mem_knowable_of_isEnum mem_knowable_of_has

theorem Reachable.knowable {seeds : List String} {name : String}
    (reachable : catalog.Reachable seeds name) : name ∈ catalog.knowable := by
  cases reachable with
  | seed listed known => exact known.elim mem_knowable_of_has mem_knowable_of_isEnum
  | step reachable leads => exact leads.knowable

theorem Explored.length_le {seeds reached : List String} (explored : Explored catalog seeds reached) :
    reached.length ≤ catalog.nameCount := by
  rw [← length_knowable]
  exact explored.distinct.length_le_of_subset fun name member => (explored.reachable name member).knowable

/-- With more rounds left than there are names to add, the bound on the rounds is not met. -/
theorem settles_saturate {seeds reached : List String} {fuel : Nat}
    (explored : Explored catalog seeds reached) (enough : catalog.nameCount < fuel + reached.length) :
    catalog.Settles reached (catalog.saturate fuel reached) := by
  induction fuel generalizing reached with
  | zero =>
    have := explored.length_le
    omega
  | succ fuel ih =>
    rw [saturate]
    -- A round that adds no name is the last; any other one makes up for the fuel that it takes.
    cases round : catalog.extend reached reached with
    | error fault => exact .failed round
    | ok more =>
      rw [ok_bind]
      have longer := (extend_ok round).1.length_le
      split
      · rename_i same
        exact .settled round same
      · rename_i new
        exact .grown round new (ih (explored.extend round) (by omega))

theorem settles_reach (catalog : Catalog) (seeds : List String) :
    catalog.Settles (catalog.knownSeeds seeds) (catalog.reach seeds) :=
  settles_saturate (explored_knownSeeds catalog seeds) (by omega)

/-! ## The reachable names -/

theorem Reachable.mem_of_closed {seeds names : List String} (seeded : catalog.knownSeeds seeds <+: names)
    (closed : ∀ source ∈ names, ∀ name, catalog.Leads source name → name ∈ names) {name : String}
    (reachable : catalog.Reachable seeds name) : name ∈ names := by
  induction reachable with
  | seed listed known => exact seeded.subset (mem_knownSeeds.mpr ⟨_, listed, known, rfl⟩)
  | step reachable leads ih => exact closed _ ih _ leads

theorem reach_ok {seeds names : List String} (found : catalog.reach seeds = .ok names) :
    Explored catalog seeds names ∧ (∀ name, catalog.Reachable seeds name → name ∈ names) ∧
      ∀ name, catalog.Reachable seeds name → ∀ fault, ¬ catalog.Refuses name fault := by
  obtain ⟨explored, closed⟩ :=
    (settles_reach catalog seeds).ok (explored_knownSeeds catalog seeds) found
  have complete : ∀ name, catalog.Reachable seeds name → name ∈ names := fun name reachable =>
    reachable.mem_of_closed explored.seeded fun source member => (closed source member).2
  exact ⟨explored, complete, fun name reachable => (closed name (complete name reachable)).1⟩

theorem exists_find?_of_reach {seeds names : List String} (found : catalog.reach seeds = .ok names) {name : String}
    (member : name ∈ names) (composite : catalog.isEnum name = false) : ∃ type, catalog.find? name = some type := by
  obtain ⟨targets, listed⟩ := (settles_reach catalog seeds).successors found name member
  rw [successors, composite, if_neg Bool.false_ne_true] at listed
  obtain ⟨type, gotten, _⟩ := bind_eq_ok.mp listed
  exact ⟨type, get_eq_ok.mp gotten⟩

theorem reach_error {seeds : List String} {fault : CatalogFault} (failed : catalog.reach seeds = .error fault) :
    ∃ name, catalog.Reachable seeds name ∧ (catalog.Refuses name fault ∨
      (catalog.isEnum name = false ∧ catalog.find? name = none ∧ fault = .typeNotFound name)) :=
  (settles_reach catalog seeds).error (explored_knownSeeds catalog seeds) failed

/--
The rounds without a bound end for every catalog, with the outcome of `reach`. If they end with names,
these are the reachable ones, each once, the first occurrences of the known seeds in front. A property
that is refused somewhere within reach makes them fail, and only such a property makes them fail with
an unsupported declared type.
-/
theorem reach_exact (catalog : Catalog) (seeds : List String) :
    (∀ outcome, catalog.Settles (catalog.knownSeeds seeds) outcome ↔ outcome = catalog.reach seeds) ∧
    (∀ names, catalog.reach seeds = .ok names →
      names.Nodup ∧
      ((seeds.map catalog.resolve).filter fun name =>
        catalog.has name || catalog.isEnum name).eraseDups <+: names ∧
      ∀ name, name ∈ names ↔ catalog.Reachable seeds name) ∧
    (∀ name fault, catalog.Reachable seeds name → catalog.Refuses name fault →
      ∀ names, catalog.reach seeds ≠ .ok names) ∧
    (∀ declared place, catalog.reach seeds = .error (.unsupported declared place) →
      ∃ name, catalog.Reachable seeds name ∧ catalog.Refuses name (.unsupported declared place)) := by
  refine ⟨fun outcome => ⟨fun settles => settles.unique (settles_reach catalog seeds), ?_⟩, ?_, ?_, ?_⟩
  · rintro rfl
    exact settles_reach catalog seeds
  · intro names found
    obtain ⟨explored, complete, _⟩ := reach_ok found
    exact ⟨explored.distinct, knownSeeds_eq catalog seeds ▸ explored.seeded,
      fun name => ⟨explored.reachable name, complete name⟩⟩
  · intro name fault reachable refused names found
    exact (reach_ok found).2.2 name reachable fault refused
  · intro declared place failed
    obtain ⟨name, reachable, refused | ⟨_, _, other⟩⟩ := reach_error failed
    · exact ⟨name, reachable, refused⟩
    · cases other

def ring : Catalog where
  types := [
    ⟨"a", [⟨"next", "Collection(graph.b)", true⟩], some "b"⟩,
    ⟨"b", [⟨"kind", "graph.k", true⟩, ⟨"size", "Edm.Int32", true⟩], some "x"⟩]
  enums := [("k", ["one"])]
  aliases := [("x", "a")]
  names_distinct := by decide

theorem reach_exact_ring :
    ring.reach ["none", "x", "a"] = .ok ["a", "b", "k"] ∧ ["a", "b", "k"].Nodup ∧
      ∀ name, name ∈ ["a", "b", "k"] ↔ ring.Reachable ["none", "x", "a"] name := by
  have found : ring.reach ["none", "x", "a"] = .ok ["a", "b", "k"] := by decide +kernel
  obtain ⟨distinct, _, members⟩ := (reach_exact ring ["none", "x", "a"]).2.1 _ found
  exact ⟨found, distinct, members⟩

end ProfileConnector.Catalog
