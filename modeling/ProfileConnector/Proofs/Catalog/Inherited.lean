import Mathlib.Data.List.Chain
import Mathlib.Data.List.Perm.Subperm
import ProfileConnector.Proofs.Catalog.Chain
import ProfileConnector.Proofs.Types.Shape

/-!
Inherited properties. A type has one base chain, whatever its catalog looks like: the types that extend
each other from it on, up to one without a base or with a base whose name has been passed. The properties
of the type are the names along this chain, farthest base first, each as the lowest type declares it.
-/

namespace ProfileConnector.Catalog

variable {catalog : Catalog} {type lower base : CatalogType}

/-! ## Base chains -/

/-- The name of the base is filled in, and stands for a type of the catalog. -/
def Extends (catalog : Catalog) (lower base : CatalogType) : Prop :=
  ∃ name, lower.base = some name ∧ name ≠ "" ∧ base ∈ catalog.types ∧ base.name = catalog.resolve name

theorem base?_iff_extends : catalog.base? lower = some base ↔ catalog.Extends lower base := by
  constructor
  · intro declared
    obtain ⟨name, written, nonempty, found, named⟩ := base?_eq_some declared
    exact ⟨name, written, nonempty, mem_types_of_find? found, named⟩
  · rintro ⟨name, written, nonempty, member, named⟩
    have known : catalog.has name = true := by
      rw [has, find?, typeNamed?_isSome]
      exact List.mem_map.mpr ⟨base, member, named⟩
    obtain ⟨other, found⟩ := Option.isSome_iff_exists.mp known
    obtain rfl := eq_of_name (mem_types_of_find? found) member ((name_of_find? found).trans named.symm)
    simp [base?, written, nonempty, found]

/-- The types from one type up, each extending the one before, without a name twice and as far as that goes. -/
structure IsBaseChain (catalog : Catalog) (type : CatalogType) (chain : List CatalogType) : Prop where
  start : chain.head? = some type
  linked : chain.IsChain catalog.Extends
  distinct : (chain.map (·.name)).Nodup
  stops : ∀ last ∈ chain.getLast?, ∀ base, catalog.Extends last base → base.name ∈ chain.map (·.name)

theorem chainFrom_cases (catalog : Catalog) (fuel : Nat) (passed : List String) (type : CatalogType) :
    catalog.chainFrom fuel passed type = [] ∨
      type.name ∉ passed ∧ ∃ rest, catalog.chainFrom fuel passed type = type :: rest := by
  cases fuel with
  | zero => exact .inl rfl
  | succ fuel =>
    rw [chainFrom]
    split
    · exact .inl rfl
    · rename_i fresh
      exact .inr ⟨fresh, _, rfl⟩

theorem linked_chainFrom (fuel : Nat) (passed : List String) (type : CatalogType) :
    (catalog.chainFrom fuel passed type).IsChain catalog.Extends := by
  induction fuel generalizing passed type with
  | zero => exact .nil
  | succ fuel ih =>
    rw [chainFrom]
    split
    · exact .nil
    · cases declared : catalog.base? type with
      | none => exact .singleton type
      | some base =>
        refine List.isChain_cons.mpr ⟨fun next first => ?_, ih _ base⟩
        rcases chainFrom_cases catalog fuel (type.name :: passed) base with none | ⟨_, rest, more⟩
        · simp [none] at first
        · obtain rfl : base = next := by simpa [more] using first
          exact base?_iff_extends.mp declared

theorem distinct_chainFrom (fuel : Nat) (passed : List String) (type : CatalogType) :
    ((catalog.chainFrom fuel passed type).map (·.name)).Nodup ∧
      ∀ other ∈ catalog.chainFrom fuel passed type, other.name ∉ passed := by
  induction fuel generalizing passed type with
  | zero => simp [chainFrom]
  | succ fuel ih =>
    rw [chainFrom]
    split
    · simp
    · rename_i fresh
      cases declared : catalog.base? type with
      | none => simpa using fresh
      | some base =>
        obtain ⟨distinct, apart⟩ := ih (type.name :: passed) base
        refine ⟨List.nodup_cons.mpr ⟨fun again => ?_, distinct⟩, List.forall_mem_cons.mpr ⟨fresh, ?_⟩⟩
        · obtain ⟨other, above, same⟩ := List.mem_map.mp again
          exact apart other above (same ▸ List.mem_cons_self)
        · exact fun other above known => apart other above (List.mem_cons_of_mem _ known)

theorem isBaseChain_chain (member : type ∈ catalog.types) : catalog.IsBaseChain type (catalog.chain type) where
  start := by simp [chain, chainFrom]
  linked := linked_chainFrom _ [] type
  distinct := (distinct_chainFrom _ [] type).1
  stops last final base extending := by
    have above := base_mem_chain member (List.mem_of_getLast? final) (base?_iff_extends.mpr extending)
    exact List.mem_map.mpr ⟨base, above, rfl⟩

/-- A chain that stops where it has to is what following the bases yields, if it may go on that long. -/
theorem chainFrom_eq {fuel : Nat} {passed : List String} {rest : List CatalogType}
    (enough : rest.length < fuel) (linked : (type :: rest).IsChain catalog.Extends)
    (distinct : (passed ++ (type :: rest).map (·.name)).Nodup)
    (stops : ∀ last ∈ (type :: rest).getLast?, ∀ base, catalog.Extends last base →
      base.name ∈ passed ++ (type :: rest).map (·.name)) :
    catalog.chainFrom fuel passed type = type :: rest := by
  -- Each step moves one name to those passed; together the names stay distinct, so the walk does not stop early.
  induction rest generalizing type passed fuel with
  | nil =>
    obtain ⟨fuel, rfl⟩ : ∃ smaller, fuel = smaller + 1 := ⟨fuel - 1, by omega⟩
    have fresh : type.name ∉ passed := fun known =>
      (List.nodup_append.mp distinct).2.2 _ known _ List.mem_cons_self rfl
    rw [chainFrom, if_neg fresh]
    cases declared : catalog.base? type with
    | none => rfl
    | some base =>
      have known := stops type rfl base (base?_iff_extends.mp declared)
      have again : base.name ∈ type.name :: passed := by simpa [or_comm] using known
      rcases chainFrom_cases catalog fuel (type.name :: passed) base with none | ⟨new, _⟩
      · simp [none]
      · exact absurd again new
  | cons next rest ih =>
    obtain ⟨fuel, rfl⟩ : ∃ smaller, fuel = smaller + 1 := ⟨fuel - 1, by simp at enough; omega⟩
    have fresh : type.name ∉ passed := fun known =>
      (List.nodup_append.mp distinct).2.2 _ known _ List.mem_cons_self rfl
    obtain ⟨leads, further⟩ := List.isChain_cons_cons.mp linked
    have moved : ((type.name :: passed) ++ (next :: rest).map (·.name)).Perm
        (passed ++ (type :: next :: rest).map (·.name)) := List.perm_middle.symm
    rw [chainFrom, if_neg fresh, base?_iff_extends.mpr leads]
    refine congrArg (type :: ·) (ih (by simpa using enough) further (moved.nodup_iff.mpr distinct) ?_)
    intro last final base extending
    refine moved.mem_iff.mpr (stops last ?_ base extending)
    rwa [List.getLast?_cons_cons]

theorem IsBaseChain.subset {chain : List CatalogType} (whole : catalog.IsBaseChain type chain)
    (member : type ∈ catalog.types) : chain ⊆ catalog.types := by
  obtain ⟨start, linked, -, -⟩ := whole
  induction chain generalizing type with
  | nil => exact List.nil_subset _
  | cons first rest ih =>
    obtain rfl : first = type := by simpa using start
    refine List.cons_subset.mpr ⟨member, ?_⟩
    cases rest with
    | nil => exact List.nil_subset _
    | cons next rest =>
      obtain ⟨⟨_, _, _, known, _⟩, further⟩ := List.isChain_cons_cons.mp linked
      exact ih known rfl further

theorem isBaseChain_iff (member : type ∈ catalog.types) {chain : List CatalogType} :
    catalog.IsBaseChain type chain ↔ chain = catalog.chain type := by
  refine ⟨fun whole => ?_, fun same => same ▸ isBaseChain_chain member⟩
  have within := whole.subset member
  obtain ⟨start, linked, distinct, stops⟩ := whole
  have short := (List.subperm_of_subset distinct.of_map within).length_le
  cases chain with
  | nil => cases start
  | cons first rest =>
    obtain rfl : first = type := by simpa using start
    refine (chainFrom_eq ?_ linked distinct stops).symm
    rw [List.length_cons] at short
    omega

/-! ## Declarations along a chain -/

/-- The declaration of its name by the first type of the chain that declares it, the last one in this type. -/
def Prevails (chain : List CatalogType) (property : CatalogProperty) : Prop :=
  ∃ lower declaring upper front back, chain = lower ++ declaring :: upper ∧
    (∀ other ∈ lower, property.name ∉ other.properties.map (·.name)) ∧
    declaring.properties = front ++ property :: back ∧ property.name ∉ back.map (·.name)

open CatalogProperty

theorem exists_last_of_get? {properties : List CatalogProperty} {property : CatalogProperty} {key : String}
    (found : KeyedList.get? key (named properties).reverse = some property) :
    property.name = key ∧ ∃ front back, properties = front ++ property :: back ∧ key ∉ back.map (·.name) := by
  induction properties with
  | nil => cases found
  | cons first rest ih =>
    have split : named (first :: rest) = [(first.name, first)] ++ named rest := rfl
    rw [split, List.reverse_append, KeyedList.get?_append] at found
    cases later : KeyedList.get? key (named rest).reverse with
    | some other =>
      rw [later, Option.some_or, Option.some.injEq] at found
      obtain ⟨same, front, back, rfl, last⟩ := ih (found ▸ later)
      exact ⟨same, first :: front, back, rfl, last⟩
    | none =>
      have absent : key ∉ rest.map (·.name) := by
        rw [← isSome_get?_reverse, later]
        simp
      have here : first.name = key ∧ first = property := by simpa [later, KeyedList.get?] using found
      obtain ⟨same, rfl⟩ := here
      exact ⟨same, [], rest, rfl, absent⟩

theorem prevails_of_get? {chain : List CatalogType} {property : CatalogProperty} {key : String}
    (found : KeyedList.get? key (named (chain.reverse.flatMap (·.properties))).reverse = some property) :
    property.name = key ∧ Prevails chain property := by
  induction chain with
  | nil => cases found
  | cons type rest ih =>
    rw [List.reverse_cons, List.flatMap_append, List.flatMap_singleton, named_append, List.reverse_append,
      KeyedList.get?_append] at found
    cases own : KeyedList.get? key (named type.properties).reverse with
    | some other =>
      rw [own, Option.some_or, Option.some.injEq] at found
      obtain ⟨rfl, front, back, shape, last⟩ := exists_last_of_get? (found ▸ own)
      exact ⟨rfl, [], type, rest, front, back, rfl, by simp, shape, last⟩
    | none =>
      rw [own, Option.none_or] at found
      have silent : key ∉ type.properties.map (·.name) := by
        rw [← isSome_get?_reverse, own]
        simp
      obtain ⟨rfl, lower, declaring, upper, front, back, rfl, above, shape, last⟩ := ih found
      exact ⟨rfl, type :: lower, declaring, upper, front, back, rfl,
        List.forall_mem_cons.mpr ⟨silent, above⟩, shape, last⟩

theorem names_merged (properties : List CatalogProperty) :
    (merged properties).map (·.name) = (properties.map (·.name)).eraseDups := by
  rw [← keys_named, named_merged, KeyedList.keys_ofPairs, keys_named]

/--
Every name that the catalog knows has one base chain, even where bases are missing, renamed or lead in a
circle. Its properties are all the names declared along the chain, each once and in order of first
appearance from the farthest base on, with the declaration that prevails.
-/
theorem allProperties_inherited {name : String} (found : catalog.get name = .ok type) :
    ∃ chain properties, (∀ other, catalog.IsBaseChain type other ↔ other = chain) ∧
      catalog.allProperties name = .ok properties ∧
      (properties.map (·.name)).Nodup ∧
      properties.map (·.name) = ((chain.reverse.flatMap (·.properties)).map (·.name)).eraseDups ∧
      ∀ property ∈ properties, Prevails chain property := by
  have member := mem_types_of_find? (get_eq_ok.mp found)
  refine ⟨catalog.chain type, catalog.propertiesOf type, fun other => isBaseChain_iff member, ?_, nodup_merged _,
    names_merged _, fun property listed => ?_⟩
  · rw [allProperties, found, Outcome.map_ok]
  · exact (prevails_of_get? (get?_of_mem_merged listed)).2

/-- Three types in a circle, one of them extended under another name, that declare each other's properties again. -/
def circle : Catalog where
  types := [
    ⟨"leaf", [⟨"x", "Edm.Int32", true⟩, ⟨"y", "Edm.Int64", true⟩, ⟨"x", "Edm.Double", false⟩], some "middle"⟩,
    ⟨"trunk", [⟨"y", "Edm.String", true⟩, ⟨"z", "Edm.Date", true⟩], some "root"⟩,
    ⟨"root", [⟨"z", "Edm.String", true⟩, ⟨"x", "Edm.String", true⟩], some "leaf"⟩]
  aliases := [("middle", "trunk"), ("frond", "leaf")]
  names_distinct := by decide

theorem allProperties_inherited_circle : ∃ type, circle.get "frond" = .ok type ∧
    ∃ chain properties, (∀ other, circle.IsBaseChain type other ↔ other = chain) ∧
      chain.map (·.name) = ["leaf", "trunk", "root"] ∧
      circle.allProperties "frond" = .ok properties ∧
      properties = [⟨"z", "Edm.Date", true⟩, ⟨"x", "Edm.Double", false⟩, ⟨"y", "Edm.Int64", true⟩] ∧
      properties.map (·.name) = ((chain.reverse.flatMap (·.properties)).map (·.name)).eraseDups ∧
      ∀ property ∈ properties, Prevails chain property := by
  obtain ⟨type, found⟩ : ∃ type, circle.get "frond" = .ok type := ⟨_, rfl⟩
  obtain ⟨chain, properties, unique, all, _, names, prevail⟩ := allProperties_inherited found
  have walked : circle.get "frond" = .ok type → (circle.chain type).map (·.name) = ["leaf", "trunk", "root"] := by
    intro found
    cases found
    decide
  have resolved : circle.allProperties "frond" =
      .ok [⟨"z", "Edm.Date", true⟩, ⟨"x", "Edm.Double", false⟩, ⟨"y", "Edm.Int64", true⟩] := by decide
  have own := (unique _).mp (isBaseChain_chain (mem_types_of_find? (get_eq_ok.mp found)))
  cases all.symm.trans resolved
  exact ⟨type, found, chain, _, unique, own ▸ walked found, all, rfl, names, prevail⟩

end ProfileConnector.Catalog
