import ProfileConnector.Proofs.Catalog.Reach

/-!
Base chains. The chain of a type is followed up to a type without a base or to a name that would come
again, so it is closed under bases: the bound on its length, the size of the catalog, is not met.
-/

namespace ProfileConnector.Catalog

variable {catalog : Catalog} {type lower base : CatalogType}

/-- The catalog knows the type by its own name, and no enumeration has the name. -/
def Standing (catalog : Catalog) (type : CatalogType) : Prop :=
  catalog.find? type.name = some type ∧ catalog.isEnum type.name = false

theorem eq_of_name {other : CatalogType} (member : type ∈ catalog.types) (known : other ∈ catalog.types)
    (same : type.name = other.name) : type = other :=
  List.inj_on_of_nodup_map catalog.names_distinct member known same

theorem base?_eq_some (declared : catalog.base? type = some base) :
    ∃ name, type.base = some name ∧ name ≠ "" ∧ catalog.find? name = some base ∧ base.name = catalog.resolve name := by
  unfold base? at declared
  split at declared
  · rename_i name written
    split at declared
    · cases declared
    · rename_i nonempty
      exact ⟨name, written, by simpa using nonempty, declared, name_of_find? declared⟩
  · cases declared

theorem mem_types_of_base? (declared : catalog.base? type = some base) : base ∈ catalog.types := by
  obtain ⟨_, _, _, found, _⟩ := base?_eq_some declared
  exact mem_types_of_find? found

theorem Leads.of_base? {name : String} (composite : catalog.isEnum name = false)
    (found : catalog.find? name = some type) (declared : catalog.base? type = some base) :
    catalog.Leads name base.name := by
  obtain ⟨written, own, nonempty, known, named⟩ := base?_eq_some declared
  rw [named]
  exact .base composite found own nonempty (has_of_find? known)

theorem mem_chain_self (catalog : Catalog) (type : CatalogType) : type ∈ catalog.chain type := by
  simp [chain, chainFrom]

theorem chain_induction {motive : CatalogType → Prop} (self : motive type)
    (up : ∀ lower ∈ catalog.chain type, ∀ base, catalog.base? lower = some base → motive lower → motive base) :
    ∀ ancestor ∈ catalog.chain type, motive ancestor := by
  -- A later part of the walk stays within the chain, so the step applies to each of its members.
  have along (fuel : Nat) (seen : List String) (start : CatalogType) (holds : motive start)
      (inside : ∀ ancestor ∈ catalog.chainFrom fuel seen start, ancestor ∈ catalog.chain type) :
      ∀ ancestor ∈ catalog.chainFrom fuel seen start, motive ancestor := by
    induction fuel generalizing seen start with
    | zero => exact fun _ listed => absurd listed List.not_mem_nil
    | succ fuel ih =>
      intro ancestor listed
      rw [chainFrom] at listed inside
      split at listed
      · cases listed
      · rename_i fresh
        rw [if_neg fresh] at inside
        rcases List.mem_cons.mp listed with rfl | later
        · exact holds
        · cases declared : catalog.base? start with
          | none => simp [declared] at later
          | some base =>
            rw [declared] at later inside
            exact ih _ base (up start (inside start List.mem_cons_self) base declared holds)
              (fun other member => inside other (List.mem_cons_of_mem _ member)) ancestor later
  exact along _ [] type self fun _ listed => listed

theorem base_mem_chainFrom {fuel : Nat} (passed : List CatalogType) (distinct : (passed.map (·.name)).Nodup)
    (known : ∀ other ∈ passed, other ∈ catalog.types) (enough : catalog.types.length < fuel + passed.length)
    (member : type ∈ catalog.types) (listed : lower ∈ catalog.chainFrom fuel (passed.map (·.name)) type)
    (declared : catalog.base? lower = some base) :
    base ∈ catalog.chainFrom fuel (passed.map (·.name)) type ∨ base ∈ passed := by
  induction fuel generalizing type passed with
  | zero => cases listed
  | succ fuel ih =>
    rw [chainFrom] at listed ⊢
    split at listed
    · cases listed
    rename_i fresh
    rw [if_neg fresh]
    have distinct' : ((type :: passed).map (·.name)).Nodup := List.nodup_cons.mpr ⟨fresh, distinct⟩
    have known' : ∀ other ∈ type :: passed, other ∈ catalog.types := List.forall_mem_cons.mpr ⟨member, known⟩
    have room : (type :: passed).length ≤ catalog.types.length := distinct'.of_map.length_le_of_subset known'
    rw [List.length_cons] at room
    have back (inside : base ∈ type :: passed) (above : List CatalogType) : base ∈ type :: above ∨ base ∈ passed :=
      (List.mem_cons.mp inside).imp_left fun here => List.mem_cons.mpr (Or.inl here)
    rcases List.mem_cons.mp listed with rfl | later
    · by_cases again : base ∈ lower :: passed
      · exact back again _
      · -- There is room for one more type, so the base itself is next.
        obtain ⟨rest, rfl⟩ : ∃ rest, fuel = rest + 1 := ⟨fuel - 1, by omega⟩
        have new : base.name ∉ lower.name :: passed.map (·.name) := by
          intro repeated
          obtain ⟨other, inside, same⟩ := List.mem_map.mp (List.map_cons ▸ repeated)
          exact again (eq_of_name (known' other inside) (mem_types_of_base? declared) same ▸ inside)
        rw [declared]
        simp only [chainFrom, if_neg new]
        exact Or.inl (List.mem_cons_of_mem _ List.mem_cons_self)
    · cases up : catalog.base? type with
      | none => simp [up] at later
      | some next =>
        rw [up] at later
        rcases ih (type :: passed) distinct' known' (by rw [List.length_cons]; omega) (mem_types_of_base? up) later with
          above | inside
        · exact Or.inl (List.mem_cons_of_mem _ above)
        · exact back inside _

theorem base_mem_chain (member : type ∈ catalog.types) (listed : lower ∈ catalog.chain type)
    (declared : catalog.base? lower = some base) : base ∈ catalog.chain type := by
  have inside := base_mem_chainFrom [] List.nodup_nil (by simp) (by simp) member listed declared
  exact inside.resolve_right List.not_mem_nil

theorem exists_owner {names : List String} (closed : ∀ source ∈ names, ∀ name, catalog.Leads source name → name ∈ names)
    (bases : ∀ name ∈ names, ∀ type base, catalog.isEnum name = false → catalog.find? name = some type →
      catalog.base? type = some base → catalog.Standing base) {name : String} (member : name ∈ names)
    (composite : catalog.isEnum name = false) (found : catalog.find? name = some type) :
    ∀ ancestor ∈ catalog.chain type, ∃ owner ∈ names, catalog.isEnum owner = false ∧
      catalog.find? owner = some ancestor := by
  refine chain_induction ⟨name, member, composite, found⟩ ?_
  rintro lower _ base declared ⟨owner, listed, plain, stands⟩
  obtain ⟨known, apart⟩ := bases owner listed lower base plain stands declared
  exact ⟨base.name, closed owner listed _ (.of_base? plain stands declared), apart, known⟩

end ProfileConnector.Catalog
