import Mathlib.Data.List.Nodup
import ProfileConnector.Proofs.Outcome
import ProfileConnector.Types.Bundle

/-!
What the templates of a bundle show. The type of a template has just the properties that are declared
for it, each with the descriptor of its own declared type; of several declarations of one name the
last one counts, and an own declaration counts more than an inherited one.
-/

namespace ProfileConnector

open Outcome

/-! ## Lookup -/

theorem KeyedList.rel_get? {κ ν μ : Type} [DecidableEq κ] {related : ν → μ → Prop} {first : KeyedList κ ν}
    {second : KeyedList κ μ}
    (each : List.Forall₂ (fun a b => a.1 = b.1 ∧ related a.2 b.2) first second) (key : κ) :
    Option.Rel related (KeyedList.get? key first) (KeyedList.get? key second) := by
  induction each with
  | nil => exact .none
  | @cons a b _ _ same _ ih =>
    obtain ⟨k, v⟩ := a
    obtain ⟨k', w⟩ := b
    obtain ⟨rfl, values⟩ := same
    by_cases here : k = key
    · simpa [KeyedList.get?, here] using Option.Rel.some values
    · simpa [KeyedList.get?, here] using ih

theorem isSome_of_rel {ν μ : Type} {related : ν → μ → Prop} {first : Option ν} {second : Option μ}
    (each : Option.Rel related first second) : first.isSome = second.isSome := by
  cases each <;> rfl

namespace CatalogProperty

def named (properties : List CatalogProperty) : KeyedList String CatalogProperty :=
  properties.map fun property => (property.name, property)

theorem keys_named (properties : List CatalogProperty) :
    KeyedList.keys (named properties) = properties.map (·.name) := by
  simp [KeyedList.keys, named, Function.comp_def]

theorem mem_named {properties : List CatalogProperty} {key : String} {property : CatalogProperty} :
    (key, property) ∈ named properties ↔ property ∈ properties ∧ property.name = key := by
  simp only [named, List.mem_map, Prod.mk.injEq]
  constructor
  · rintro ⟨other, listed, rfl, rfl⟩
    exact ⟨listed, rfl⟩
  · rintro ⟨listed, rfl⟩
    exact ⟨property, listed, rfl, rfl⟩

theorem isSome_get?_reverse {properties : List CatalogProperty} {key : String} :
    (KeyedList.get? key (named properties).reverse).isSome ↔ key ∈ properties.map (·.name) := by
  rw [KeyedList.isSome_get?, ← keys_named, KeyedList.keys, KeyedList.keys, List.map_reverse, List.mem_reverse]

theorem named_append (first second : List CatalogProperty) :
    named (first ++ second) = named first ++ named second := List.map_append

end CatalogProperty

namespace Catalog

open CatalogProperty

variable {catalog : Catalog} {aliases : AliasTable}

theorem named_merged (properties : List CatalogProperty) :
    named (merged properties) = KeyedList.ofPairs (named properties) := by
  have own : ∀ entry ∈ KeyedList.ofPairs (named properties), (entry.2.name, entry.2) = entry := by
    rintro ⟨key, property⟩ member
    have found := (KeyedList.get?_eq_some (KeyedList.nodup_keys_ofPairs _)).mpr member
    rw [KeyedList.get?_ofPairs] at found
    rw [(mem_named.mp (List.mem_reverse.mp (KeyedList.mem_of_get? found))).2]
  rw [named, merged, List.map_map]
  exact (List.map_congr_left own).trans (List.map_id _)

theorem nodup_merged (properties : List CatalogProperty) : ((merged properties).map (·.name)).Nodup := by
  rw [← keys_named, named_merged]
  exact KeyedList.nodup_keys_ofPairs _

theorem get?_of_mem_merged {properties : List CatalogProperty} {property : CatalogProperty}
    (member : property ∈ merged properties) :
    KeyedList.get? property.name (named properties).reverse = some property := by
  rw [← KeyedList.get?_ofPairs, KeyedList.get?_eq_some (KeyedList.nodup_keys_ofPairs _), ← named_merged]
  exact mem_named.mpr ⟨member, rfl⟩

theorem mem_of_get?_reverse {properties : List CatalogProperty} {property : CatalogProperty} {key : String}
    (found : KeyedList.get? key (named properties).reverse = some property) : property ∈ properties :=
  (mem_named.mp (List.mem_reverse.mp (KeyedList.mem_of_get? found))).1

theorem get?_inherited (inherited own : List CatalogProperty) (key : String) :
    (KeyedList.get? key (named own).reverse).or
        (KeyedList.get? key (named ((merged (inherited ++ own)).filter fun property =>
          !(own.map (·.name)).contains property.name)).reverse) =
      KeyedList.get? key (named (merged (inherited ++ own))) := by
  have all : KeyedList.get? key (named (merged (inherited ++ own))) =
      (KeyedList.get? key (named own).reverse).or (KeyedList.get? key (named inherited).reverse) := by
    rw [named_merged, KeyedList.get?_ofPairs, named_append, List.reverse_append, KeyedList.get?_append]
  -- An own property hides every inherited one; of the others the last one counts in both lists.
  cases found : KeyedList.get? key (named own).reverse with
  | some property => rw [all, found, Option.some_or, Option.some_or]
  | none =>
    have foreign : ¬ (own.map (·.name)).contains key = true := by
      rw [List.contains_iff_mem, ← isSome_get?_reverse, found]
      simp
    have distinct := nodup_merged (inherited ++ own)
    have others : (((merged (inherited ++ own)).filter fun property =>
        !(own.map (·.name)).contains property.name).map (·.name)).Nodup :=
      distinct.sublist ((List.filter_sublist).map _)
    rw [← keys_named] at distinct others
    have backwards := List.nodup_reverse.mpr others
    rw [KeyedList.keys, ← List.map_reverse] at backwards
    rw [Option.none_or]
    refine Option.ext fun property => ?_
    rw [KeyedList.get?_eq_some backwards, KeyedList.get?_eq_some distinct, List.mem_reverse, mem_named, mem_named,
      List.mem_filter]
    constructor
    · rintro ⟨⟨listed, _⟩, same⟩
      exact ⟨listed, same⟩
    · rintro ⟨listed, rfl⟩
      exact ⟨⟨listed, by simpa using foreign⟩, rfl⟩

end Catalog

/-! ## Shapes -/

/-- The property as transforms see it is its declaration with its own declared type resolved. -/
structure Shows (catalog : Catalog) (aliases : AliasTable) (property : CatalogProperty) (info : PropertyInfo) :
    Prop where
  name : info.name = property.name
  memberName : info.memberName = Identifier.memberName property.name
  nullable : info.nullable = property.nullable
  descriptor : Descriptor.resolve catalog aliases property.declaredType = .ok info.descriptor

/-- The type has just the declared properties, each resolved from its own declared type. -/
structure Shapes (catalog : Catalog) (aliases : AliasTable) (properties : List CatalogProperty) (info : TypeInfo) :
    Prop where
  names : ∀ key, key ∈ KeyedList.keys info.properties ↔ key ∈ properties.map (·.name)
  shown : ∀ property ∈ properties, ∃ shown, info.property? property.name = some shown ∧
    Shows catalog aliases property shown

namespace DeclaredField

variable {catalog : Catalog} {aliases : AliasTable}

def named (fields : List DeclaredField) : KeyedList String PropertyInfo :=
  fields.map fun field => (field.name, field.toInfo)

theorem resolveAll_shows {properties : List CatalogProperty} {used : List String} {fields : List DeclaredField}
    (resolved : resolveAll catalog aliases used properties = .ok fields) :
    List.Forall₂ (fun property field => Shows catalog aliases property field.toInfo) properties fields := by
  induction properties generalizing used fields with
  | nil =>
    cases resolved
    exact .nil
  | cons property rest ih =>
    obtain ⟨descriptor, found, remaining⟩ := bind_eq_ok.mp resolved
    obtain ⟨others, later, result⟩ := bind_eq_ok.mp remaining
    cases result
    exact .cons ⟨rfl, rfl, rfl, found⟩ (ih later)

theorem resolveAll_ok {properties : List CatalogProperty} {used : List String} {fields : List DeclaredField}
    (resolved : resolveAll catalog aliases used properties = .ok fields) :
    List.Forall₂ (fun a b => a.1 = b.1 ∧ Shows catalog aliases a.2 b.2) (CatalogProperty.named properties)
      (named fields) := by
  rw [CatalogProperty.named, named, List.forall₂_map_left_iff, List.forall₂_map_right_iff]
  exact (resolveAll_shows resolved).imp fun property field shows => ⟨shows.name.symm, shows⟩

theorem rel_resolveAll {properties : List CatalogProperty} {used : List String} {fields : List DeclaredField}
    (resolved : resolveAll catalog aliases used properties = .ok fields) (key : String) :
    Option.Rel (Shows catalog aliases) (KeyedList.get? key (CatalogProperty.named properties).reverse)
      (KeyedList.get? key (named fields).reverse) :=
  KeyedList.rel_get? (List.rel_reverse (resolveAll_ok resolved)) key

end DeclaredField

namespace TypeTemplate

variable {catalog : Catalog} {aliases : AliasTable}

theorem property?_toInfo (template : TypeTemplate) (key : String) :
    template.toInfo.property? key =
      (KeyedList.get? key (DeclaredField.named template.fields).reverse).or
        (KeyedList.get? key (DeclaredField.named template.inherited).reverse) := by
  rw [TypeInfo.property?, toInfo, KeyedList.get?_ofPairs, List.map_append, List.reverse_append,
    KeyedList.get?_append]
  rfl

theorem shapes_of_rel {properties : List CatalogProperty} {info : TypeInfo}
    (distinct : (properties.map (·.name)).Nodup)
    (each : ∀ key, Option.Rel (Shows catalog aliases) (KeyedList.get? key (CatalogProperty.named properties))
      (info.property? key)) : Shapes catalog aliases properties info := by
  rw [← CatalogProperty.keys_named] at distinct
  refine ⟨fun key => ?_, fun property listed => ?_⟩
  · rw [← KeyedList.isSome_get?, ← CatalogProperty.keys_named, ← KeyedList.isSome_get?, isSome_of_rel (each key)]
    rfl
  · have found := (KeyedList.get?_eq_some distinct).mpr (CatalogProperty.mem_named.mpr ⟨listed, rfl⟩)
    have related := each property.name
    rw [found] at related
    cases given : info.property? property.name with
    | none =>
      rw [given] at related
      cases related
    | some shown =>
      rw [given] at related
      cases related with
      | some shows => exact ⟨shown, rfl, shows⟩

theorem rel_or {first second : Option CatalogProperty} {third fourth : Option PropertyInfo}
    (own : Option.Rel (Shows catalog aliases) first third)
    (inherited : Option.Rel (Shows catalog aliases) second fourth) :
    Option.Rel (Shows catalog aliases) (first.or second) (third.or fourth) := by
  cases own with
  | some shows => exact .some shows
  | none => exact inherited

/-- The template is that of a catalog type: its own fields and the inherited ones that they do not displace. -/
structure Declares (catalog : Catalog) (aliases : AliasTable) (name : String) (type : CatalogType)
    (template : TypeTemplate) : Prop where
  known : catalog.get name = .ok type
  named : template.name = name
  names : template.names = (KeyedList.get? name aliases).getD (DisplayNames.ofName name)
  fields : DeclaredField.resolveAll catalog aliases [] type.properties = .ok template.fields
  baseNames : template.baseNames = type.base.bind fun base => if base.isEmpty then none else KeyedList.get? base aliases
  plain : template.isDerived = false
  inherited : DeclaredField.resolveAll catalog aliases [] ((catalog.propertiesOf type).filter fun property =>
    !(type.properties.map (·.name)).contains property.name) = .ok template.inherited

theorem declares_of_ofCatalog {name : String} {template : TypeTemplate}
    (made : ofCatalog catalog aliases name = .ok template) : ∃ type, Declares catalog aliases name type template := by
  obtain ⟨type, known, remaining⟩ := bind_eq_ok.mp made
  obtain ⟨fields, own, remaining⟩ := bind_eq_ok.mp remaining
  obtain ⟨properties, all, remaining⟩ := bind_eq_ok.mp remaining
  obtain ⟨inherited, others, result⟩ := bind_eq_ok.mp remaining
  cases result
  obtain rfl : catalog.propertiesOf type = properties := by simpa [Catalog.allProperties, known] using all
  exact ⟨type, known, rfl, rfl, own, rfl, rfl, others⟩

theorem ofCatalog_ok {name : String} {template : TypeTemplate} (made : ofCatalog catalog aliases name = .ok template) :
    template.name = name ∧ template.isDerived = false ∧ ∃ properties,
      catalog.allProperties name = .ok properties ∧ Shapes catalog aliases properties template.toInfo := by
  obtain ⟨type, declares⟩ := declares_of_ofCatalog made
  have all : catalog.allProperties name = .ok (catalog.propertiesOf type) := by
    rw [Catalog.allProperties, declares.known, map_ok]
  refine ⟨declares.named, declares.plain, catalog.propertiesOf type, all, ?_⟩
  obtain ⟨bases, chained⟩ : ∃ bases, catalog.chain type = type :: bases := by
    simp [Catalog.chain, Catalog.chainFrom]
  have split : catalog.propertiesOf type =
      Catalog.merged (bases.reverse.flatMap (·.properties) ++ type.properties) := by
    simp [Catalog.propertiesOf, chained]
  refine shapes_of_rel (Catalog.nodup_merged _) fun key => ?_
  rw [property?_toInfo]
  have related := rel_or (DeclaredField.rel_resolveAll declares.fields key)
    (DeclaredField.rel_resolveAll declares.inherited key)
  rw [split] at related ⊢
  rwa [Catalog.get?_inherited] at related

end TypeTemplate

def DerivedType.declarations (type : DerivedType) : List CatalogProperty :=
  type.fields.map fun field => ⟨field.name, field.declaredType, true⟩

namespace TypeTemplate

variable {catalog : Catalog} {aliases : AliasTable}

theorem ofDerived_ok {type : DerivedType} {template : TypeTemplate}
    (made : ofDerived catalog aliases type = .ok template) (distinct : (type.fields.map (·.name)).Nodup) :
    template.name = type.name ∧ template.isDerived = true ∧
      Shapes catalog aliases type.declarations template.toInfo := by
  obtain ⟨fields, resolved, result⟩ := bind_eq_ok.mp made
  cases result
  refine ⟨rfl, rfl, shapes_of_rel ?_ fun key => ?_⟩
  · simpa [DerivedType.declarations, Function.comp_def] using distinct
  · have related := DeclaredField.rel_resolveAll resolved key
    rw [← KeyedList.get?_ofPairs, KeyedList.ofPairs_eq] at related
    · rw [property?_toInfo]
      simpa [DeclaredField.named, KeyedList.get?, DerivedType.declarations] using related
    · rw [CatalogProperty.keys_named]
      simpa [Function.comp_def] using distinct

end TypeTemplate

end ProfileConnector
