import ProfileConnector.Catalog.Reach
import ProfileConnector.Proofs.Types.Descriptor

/-!
Collections of collections. The element of a declared type is taken apart a second time when it is looked
for among the opaque strings and the catalog names, and a second wrapper gets lost there; the scalars are
looked up as they are written. Reachability takes an element apart again for the opaque strings alone.
-/

namespace ProfileConnector

open Outcome

namespace DeclaredType

variable {declared : String}

/-! ## Wrappers -/

theorem unwrapped?_eq_some {cs inside : List Char} (unwrapped : unwrapped? cs = some inside) :
    cs = "Collection(".toList ++ inside ++ [')'] := by
  simp only [unwrapped?] at unwrapped
  split at unwrapped
  · rename_i opened
    obtain ⟨rest, rfl⟩ := List.isPrefixOf_iff_prefix.mp opened
    have behind : ("Collection(".toList ++ rest).drop "Collection(".length = rest := List.drop_left
    rw [behind] at unwrapped
    split at unwrapped
    · rename_i closed
      split at unwrapped
      · cases unwrapped
      · cases unwrapped
        rw [List.append_assoc, List.dropLast_append_getLast? _ closed]
    · cases unwrapped
  · cases unwrapped

theorem unwrapped?_wrapped {inside : List Char} (some : inside ≠ []) (single : '\n' ∉ inside) :
    unwrapped? ("Collection(".toList ++ inside ++ [')']) = Option.some inside := by
  have opened : "Collection(".toList.isPrefixOf ("Collection(".toList ++ (inside ++ [')'])) = true :=
    List.isPrefixOf_iff_prefix.mpr (List.prefix_append _ _)
  have behind : ("Collection(".toList ++ (inside ++ [')'])).drop "Collection(".length = inside ++ [')'] := List.drop_left
  rw [List.append_assoc, unwrapped?, if_pos opened, behind]
  simp [some, single]

theorem parse_congr {other : String} (same : Text.trimChars declared.toList = Text.trimChars other.toList) :
    parse declared = parse other := by
  simp only [parse, same]

theorem trimChars_trimmed (cs : List Char) :
    Text.trimChars (String.ofList (Text.trimChars cs)).toList = Text.trimChars cs := by
  rw [String.toList_ofList]
  exact Text.trimBy_trimBy _ _

theorem parse_of_isCollection (wrapped : (parse declared).isCollection = true) :
    ∃ inside, Text.trimChars declared.toList = "Collection(".toList ++ inside ++ [')'] ∧
      (parse declared).element = String.ofList (Text.trimChars inside) := by
  obtain ⟨inside, unwrapped⟩ := Option.isSome_iff_exists.mp wrapped
  refine ⟨inside, unwrapped?_eq_some unwrapped, ?_⟩
  simp only [parse, unwrapped, Option.map_some, Option.getD_some]

theorem element_of_plain (plain : (parse declared).isCollection = false) :
    (parse declared).element = String.ofList (Text.trimChars declared.toList) := by
  have unwrapped : unwrapped? (Text.trimChars declared.toList) = none := by simpa [parse] using plain
  simp only [parse, unwrapped, Option.map_none, Option.getD_none]

theorem length_element_lt (wrapped : (parse declared).isCollection = true) :
    (parse declared).element.length < declared.length := by
  obtain ⟨inside, spelled, element⟩ := parse_of_isCollection wrapped
  have outer : (Text.trimChars declared.toList).length ≤ declared.toList.length :=
    (Text.trimBy_sublist _ _).length_le
  have inner : (Text.trimChars inside).length ≤ inside.length := (Text.trimBy_sublist _ _).length_le
  rw [spelled] at outer
  rw [element, String.length_ofList, ← String.length_toList (s := declared)]
  simp only [List.length_append, List.length_singleton] at outer
  omega

/-- The number of wrappers around a declared type, one within the other. -/
def levels (declared : String) : Nat :=
  if wrapped : (parse declared).isCollection = true then levels (parse declared).element + 1 else 0
termination_by declared.length
decreasing_by exact length_element_lt wrapped

theorem levels_of_isCollection (wrapped : (parse declared).isCollection = true) :
    levels declared = levels (parse declared).element + 1 := by
  rw [levels, dif_pos wrapped]

theorem levels_of_plain (plain : (parse declared).isCollection = false) : levels declared = 0 := by
  rw [levels, dif_neg (by simp [plain])]

theorem levels_pos_iff : 0 < levels declared ↔ (parse declared).isCollection = true := by
  cases wrapped : (parse declared).isCollection with
  | true => simp [levels_of_isCollection wrapped]
  | false => simp [levels_of_plain wrapped]

theorem levels_congr {other : String} (same : Text.trimChars declared.toList = Text.trimChars other.toList) :
    levels declared = levels other := by
  have parsed := parse_congr same
  cases wrapped : (parse other).isCollection with
  | true => rw [levels_of_isCollection wrapped, levels_of_isCollection (by rw [parsed, wrapped]), parsed]
  | false => rw [levels_of_plain wrapped, levels_of_plain (by rw [parsed, wrapped])]

theorem levels_wrapped (some : declared.toList ≠ []) (single : '\n' ∉ declared.toList) :
    levels ("Collection(" ++ declared ++ ")") = levels declared + 1 := by
  have spelled : ("Collection(" ++ declared ++ ")").toList = "Collection(".toList ++ declared.toList ++ [')'] := by
    simp
  have ends : Text.EndsFilled ("Collection(".toList ++ declared.toList ++ [')']) := by
    intro c last
    rw [List.getLast?_concat] at last
    cases last
    decide
  have trimmed : Text.trimChars ("Collection(" ++ declared ++ ")").toList =
      "Collection(".toList ++ declared.toList ++ [')'] := by
    rw [spelled]
    exact Text.trimChars_eq (by decide) ends
  have unwrapped := unwrapped?_wrapped some single
  have wrapped : (parse ("Collection(" ++ declared ++ ")")).isCollection = true := by
    simp only [parse, trimmed, unwrapped, Option.isSome_some]
  have element : (parse ("Collection(" ++ declared ++ ")")).element = String.ofList (Text.trimChars declared.toList) := by
    simp only [parse, trimmed, unwrapped, Option.map_some, Option.getD_some]
  rw [levels_of_isCollection wrapped, element, levels_congr (trimChars_trimmed _)]

/-- What is left of a declared type without its wrapper is a collection itself. -/
def Nested (declared : String) : Prop := (parse (parse declared).element).isCollection = true

theorem Nested.isCollection (nested : Nested declared) : (parse declared).isCollection = true := by
  by_contra plain
  have element := element_of_plain (Bool.not_eq_true _ ▸ plain)
  have same : parse (parse declared).element = parse declared := by
    rw [element]
    exact parse_congr (trimChars_trimmed _)
  rw [Nested, same] at nested
  exact plain nested

theorem levels_le_one_iff : levels declared ≤ 1 ↔ ¬ Nested declared := by
  cases wrapped : (parse declared).isCollection with
  | true =>
    rw [levels_of_isCollection wrapped, Nested, ← levels_pos_iff]
    omega
  | false =>
    have single : ¬ Nested declared := fun nested => by simp [nested.isCollection] at wrapped
    simp [levels_of_plain wrapped, single]

theorem Nested.element_eq (nested : Nested declared) :
    ∃ inside, (parse declared).element.toList = 'C' :: inside := by
  obtain ⟨outside, _, element⟩ := parse_of_isCollection nested.isCollection
  obtain ⟨inside, spelled, _⟩ := parse_of_isCollection nested
  have trimmed : Text.trimChars (parse declared).element.toList = (parse declared).element.toList := by
    rw [element, trimChars_trimmed, String.toList_ofList]
  exact ⟨_, trimmed.symm.trans spelled⟩

theorem qualifier_eq (declared : String) :
    (parse declared).qualifier = (qualified? (parse declared).element.toList).map fun (front, _) => String.ofList front := by
  simp only [parse, String.toList_ofList]

theorem Nested.qualifier_opens (nested : Nested declared) {front : String}
    (qualified : (parse declared).qualifier = some front) :
    front.toList.head? = some 'C' := by
  obtain ⟨inside, spelled⟩ := nested.element_eq
  rw [qualifier_eq, Option.map_eq_some_iff] at qualified
  obtain ⟨⟨front, rest⟩, parts, rfl⟩ := qualified
  have whole := spelled.symm.trans (qualified?_eq_some parts)
  rw [String.toList_ofList]
  cases front with
  | nil => cases whole
  | cons c front =>
    cases whole
    rfl

theorem Nested.not_isScalar (nested : Nested declared) : (parse declared).isScalar = false := by
  rw [isScalar, beq_eq_false_iff_ne]
  intro qualified
  cases nested.qualifier_opens qualified

theorem Nested.catalogName?_eq_none (nested : Nested declared) : (parse declared).catalogName? = none := by
  rw [catalogName?, if_neg]
  intro qualified
  cases nested.qualifier_opens qualified

theorem Nested.not_supported (nested : Nested declared) : (parse declared).element ∉ supportedScalars := by
  obtain ⟨inside, spelled⟩ := nested.element_eq
  intro supported
  have first := head_of_supported supported
  rw [spelled] at first
  cases first

end DeclaredType

open DeclaredType

/-- What a declared type without its wrappers is known as, other than a scalar. -/
def Catalog.Knows (catalog : Catalog) (aliases : AliasTable) (declared : DeclaredType) : Prop :=
  declared.element ∈ catalog.stringTypes ∨ ∃ name, declared.catalogName? = some name ∧
    (catalog.isEnum name = true ∨ name ∈ KeyedList.keys aliases)

namespace Descriptor

variable {catalog : Catalog} {aliases : AliasTable} {declared : String}

def levels (descriptor : Descriptor) : Nat := if descriptor.isCollection then 1 else 0

theorem levels_resolved {descriptor : Descriptor} (resolved : resolve catalog aliases declared = .ok descriptor) :
    descriptor.levels = min (DeclaredType.levels declared) 1 := by
  obtain ⟨element, _, rfl⟩ := map_eq_ok.mp resolved
  cases wrapped : (parse declared).isCollection with
  | true => simp [levels, levels_of_isCollection wrapped]
  | false => simp [levels, levels_of_plain wrapped]

theorem levels_eq_iff {descriptor : Descriptor} (resolved : resolve catalog aliases declared = .ok descriptor) :
    descriptor.levels = DeclaredType.levels declared ↔ ¬ Nested declared := by
  rw [levels_resolved resolved, ← levels_le_one_iff]
  omega

theorem resolve_nested_isOk (nested : Nested declared) :
    (∃ descriptor, resolve catalog aliases declared = .ok descriptor) ↔
      catalog.Knows aliases (parse (parse declared).element) := by
  have element : (∃ descriptor, resolve catalog aliases declared = .ok descriptor) ↔
      ∃ element, Element.resolve catalog aliases (parse declared).element = .ok element := by
    simp [resolve, map_eq_ok]
  rw [element, Element.resolve_isOk, or_iff_right_of_imp (a := (parse declared).element ∈ supportedScalars), Catalog.Knows,
    Catalog.isStringLike, List.contains_iff_mem]
  exact fun supported => absurd supported nested.not_supported

end Descriptor

namespace Catalog

variable {catalog : Catalog} {owner : String} {property : CatalogProperty}

theorem referencedName_nested_isOk (nested : Nested property.declaredType) :
    (∃ target, catalog.referencedName owner property = .ok target) ↔
      (parse property.declaredType).qualifier.isSome = true ∧
        (parse (parse property.declaredType).element).element ∈ catalog.stringTypes := by
  simp only [referencedName, nested.not_isScalar, nested.catalogName?_eq_none, Bool.false_or, isStringLike]
  cases (parse property.declaredType).qualifier with
  | none => simp [nested.not_supported]
  | some front =>
    by_cases text : (parse (parse property.declaredType).element).element ∈ catalog.stringTypes <;> simp [text]

/--
A resolved type has the levels of its declaration, and a property that is admitted declares one level at
most, unless there are two wrappers around a name that is known without them. Reachability knows only the
opaque strings there, and only those with a dot.
-/
theorem levels_kept_iff (catalog : Catalog) (aliases : AliasTable) (owner : String) (property : CatalogProperty) :
    ((∀ descriptor, Descriptor.resolve catalog aliases property.declaredType = .ok descriptor →
        ¬ Nested property.declaredType ∧ descriptor.levels = DeclaredType.levels property.declaredType) ↔
      ¬ (Nested property.declaredType ∧ catalog.Knows aliases (parse (parse property.declaredType).element))) ∧
    ((∀ target, catalog.referencedName owner property = .ok target → ¬ Nested property.declaredType) ↔
      ¬ (Nested property.declaredType ∧ (parse property.declaredType).qualifier.isSome = true ∧
        (parse (parse property.declaredType).element).element ∈ catalog.stringTypes)) := by
  by_cases nested : Nested property.declaredType
  · have resolved := @Descriptor.resolve_nested_isOk catalog aliases property.declaredType nested
    have admitted := @referencedName_nested_isOk catalog owner property nested
    simp only [nested, true_and, not_true_eq_false, false_and, imp_false, ← resolved, ← admitted, not_exists]
  · have kept : ∀ descriptor, Descriptor.resolve catalog aliases property.declaredType = .ok descriptor →
        descriptor.levels = DeclaredType.levels property.declaredType :=
      fun descriptor resolved => (Descriptor.levels_eq_iff resolved).mpr nested
    simpa [nested] using kept

/-- Lists of lists of addresses become lists of strings. -/
theorem addresses_flattened :
    let catalog : Catalog := ⟨{ stringTypes := ["graph.emailType"] }, List.nodup_nil⟩
    let property : CatalogProperty := ⟨"p", "Collection(Collection(graph.emailType))", true⟩
    let descriptor : Descriptor := ⟨true, Element.ofOpaque "Collection(graph.emailType)"⟩
    Descriptor.resolve catalog [] property.declaredType = .ok descriptor ∧
      catalog.referencedName "facet" property = .ok none ∧ Nested property.declaredType ∧
      descriptor.names.ts = "string[]" ∧ descriptor.levels = 1 ∧ DeclaredType.levels property.declaredType = 2 := by
  refine ⟨by decide, by decide, by unfold Nested; decide, by decide, rfl, ?_⟩
  have spelled : "Collection(Collection(graph.emailType))" =
      "Collection(" ++ ("Collection(" ++ "graph.emailType" ++ ")") ++ ")" := by decide
  have plain : DeclaredType.levels "graph.emailType" = 0 := levels_of_plain (by decide)
  change DeclaredType.levels "Collection(Collection(graph.emailType))" = 2
  rw [spelled, levels_wrapped (by decide) (by decide),
    levels_wrapped (by decide) (by decide), plain]

end Catalog

end ProfileConnector
