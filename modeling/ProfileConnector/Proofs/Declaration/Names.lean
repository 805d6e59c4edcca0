import ProfileConnector.Declaration.Python
import ProfileConnector.Declaration.TypeScript
import ProfileConnector.Proofs.Declaration.CSharp
import ProfileConnector.Proofs.Identifier

/-!
Names of declarations. Enumerations and templates are declared in every target, each under its own name
put into the form of the target. Own names are distinct but for a derived type with the name of an
enumeration, so declared names are distinct just if the form of the target keeps own names apart; they
are identifiers in TypeScript and Python, and in C# if the own names go on like identifiers.
-/

namespace ProfileConnector.Bundle

open Outcome

variable {catalog : Catalog} {schema : Schema} {rootFacet : String} {bundle : Bundle}

/-- The names under which the enumerations and the templates are declared. -/
def typeNamesOn (bundle : Bundle) : Target → List String
  | .typescript =>
    let declarations := TypeScript.Declarations.ofBundle bundle
    declarations.enums.map (·.typeName) ++ declarations.types.map (·.typeName)
  | .csharp =>
    let declarations := CSharp.Declarations.ofBundle bundle
    declarations.enums.map (·.typeName) ++ declarations.classes.map (·.className)
  | .python =>
    let declarations := Python.Declarations.ofBundle bundle
    declarations.enums.map (·.typeName) ++ declarations.dictionaries.map (·.typeName)

/-- The names that the enumerations and the templates bear in the catalog and in the schema. -/
def ownNames (bundle : Bundle) : List String := bundle.enums.map (·.name) ++ bundle.templates.map (·.name)

theorem typeNamesOn_eq (bundle : Bundle) (target : Target) : bundle.typeNamesOn target =
    bundle.enums.map (·.names.on target) ++ bundle.templates.map (·.names.on target) := by
  cases target <;>
    simp only [typeNamesOn, TypeScript.Declarations.ofBundle, CSharp.Declarations.ofBundle,
      Python.Declarations.ofBundle, List.map_map] <;>
    rfl

namespace Made

variable {synthesis : Synthesis} {declared derived : List TypeTemplate}
variable (made : Made catalog schema rootFacet bundle synthesis declared derived)

include made

theorem typeNamesOn_eq_map (target : Target) :
    bundle.typeNamesOn target = bundle.ownNames.map fun name => (DisplayNames.ofName name).on target := by
  have enums : ∀ template ∈ bundle.enums, template.names = DisplayNames.ofName template.name := by
    rw [made.enums]
    intro template member
    obtain ⟨name, _, rfl⟩ := List.mem_map.mp member
    rfl
  rw [typeNamesOn_eq, ownNames, List.map_append, List.map_map, List.map_map]
  congr 1
  · exact List.map_congr_left fun template member => by rw [enums template member]; rfl
  · exact List.map_congr_left fun template member => by rw [made.names_of_mem member]; rfl

theorem enumNames_eq : bundle.enums.map (·.name) = bundle.closure.filter catalog.isEnum := by
  rw [made.enums, List.map_map]
  exact List.map_id _

theorem nodup_ownNames : bundle.ownNames.Nodup ↔ ∀ type ∈ bundle.derived, type.name ∉ bundle.enums.map (·.name) := by
  have enums : (bundle.enums.map (·.name)).Nodup := by
    rw [made.enumNames_eq]
    exact (Catalog.reach_ok made.reached).1.distinct.filter _
  rw [ownNames, List.nodup_append]
  constructor
  · rintro ⟨_, _, apart⟩ type listed shared
    have template : type.name ∈ bundle.templates.map (·.name) := by
      rw [made.names_eq]
      exact List.mem_append_right _ (List.mem_map_of_mem listed)
    exact apart _ shared _ template rfl
  · refine fun apart => ⟨enums, made.distinct, ?_⟩
    rintro name enum _ template rfl
    rw [made.names_eq] at template
    rcases List.mem_append.mp template with plain | fromDerived
    · rw [made.enumNames_eq] at enum
      have composite := (made.mem_declaredNames.mp plain).2.1
      rw [(List.mem_filter.mp enum).2] at composite
      cases composite
    · obtain ⟨type, listed, rfl⟩ := List.mem_map.mp fromDerived
      exact apart type listed enum

end Made

theorem isIdentifier_on (name : String) (target : Target) :
    Identifier.isIdentifier ((DisplayNames.ofName name).on target).toList = true ↔
      (target = .csharp → Identifier.Capitalizable name) := by
  have word : Identifier.isIdentifier (Identifier.typeName name).toList = true := by
    rw [Identifier.typeName, String.toList_ofList]
    exact Identifier.isIdentifier_typeChars name.toList
  cases target with
  | typescript => exact iff_of_true word nofun
  | csharp => exact (Identifier.isIdentifier_memberName name).trans (by simp)
  | python => exact iff_of_true word nofun

/--
Every enumeration and every template of a bundle is declared under its own name in the form of the
target. The declared names are distinct just if no derived type has the name of an enumeration and no
two own names have one form; each of them is an identifier, save that in C# the own name has to go on
like one and to begin like one or with a character that does in capital form.
-/
theorem build_typeNames (built : build catalog schema rootFacet = .ok bundle) (target : Target) :
    bundle.typeNamesOn target = bundle.ownNames.map (fun name => (DisplayNames.ofName name).on target) ∧
    ((bundle.typeNamesOn target).Nodup ↔
      (∀ type ∈ bundle.derived, type.name ∉ bundle.enums.map (·.name)) ∧
      ∀ first ∈ bundle.ownNames, ∀ second ∈ bundle.ownNames,
        (DisplayNames.ofName first).on target = (DisplayNames.ofName second).on target → first = second) ∧
    ∀ name ∈ bundle.ownNames, Identifier.isIdentifier ((DisplayNames.ofName name).on target).toList = true ↔
      (target = .csharp → Identifier.Capitalizable name) := by
  obtain ⟨synthesis, declared, derived, made⟩ := build_ok built
  refine ⟨made.typeNamesOn_eq_map target, ?_, fun name _ => isIdentifier_on name target⟩
  rw [made.typeNamesOn_eq_map target, ← made.nodup_ownNames]
  constructor
  · exact fun distinct => ⟨distinct.of_map, List.inj_on_of_nodup_map distinct⟩
  · exact fun ⟨distinct, apart⟩ => distinct.map_on apart

def bareCatalog : Catalog where
  types := [⟨"facet", [], none⟩]
  names_distinct := by decide

def alikeSchema : Schema where
  properties := ["a b", "aB"].map fun entity =>
    { name := entity, type := .string, entity := some ⟨entity, [⟨"c", { headers := ["x"] }⟩]⟩ }

theorem alike_bundle : ∃ bundle, build bareCatalog alikeSchema "facet" = .ok bundle ∧
    bundle.typeNamesOn .typescript = ["Facet", "AB", "AB"] ∧ bundle.typeNamesOn .csharp = ["Facet", "A b", "AB"] ∧
    bundle.ownNames = ["facet", "a b", "aB"] ∧ bundle.enums.map (·.name) = [] := by
  have view : (build bareCatalog alikeSchema "facet").map (fun bundle => (bundle.typeNamesOn .typescript,
      bundle.typeNamesOn .csharp, bundle.ownNames, bundle.enums.map (·.name))) =
      .ok (["Facet", "AB", "AB"], ["Facet", "A b", "AB"], ["facet", "a b", "aB"], []) := by decide +kernel
  obtain ⟨bundle, built, shown⟩ := map_eq_ok.mp view
  simp only [Prod.mk.injEq] at shown
  exact ⟨bundle, built, shown⟩

theorem build_typeNames_alike : ∃ bundle, build bareCatalog alikeSchema "facet" = .ok bundle ∧
    (bundle.typeNamesOn .csharp).Nodup ∧ ¬ Identifier.Capitalizable "a b" := by
  obtain ⟨bundle, built, _, csharp, own, enums⟩ := alike_bundle
  obtain ⟨_, distinct, identifiers⟩ := build_typeNames built .csharp
  refine ⟨bundle, built, distinct.mpr ⟨by simp [enums], ?_⟩, fun capitalizable => ?_⟩
  · rw [own]
    decide +kernel
  · have word := (identifiers "a b" (by simp [own])).mpr fun _ => capitalizable
    exact absurd word (by decide +kernel)

/-- The declared names need neither be distinct nor be identifiers. -/
theorem build_alike : ∃ bundle, build bareCatalog alikeSchema "facet" = .ok bundle ∧
    ¬ (bundle.typeNamesOn .typescript).Nodup ∧
    ∃ name ∈ bundle.typeNamesOn .csharp, Identifier.isIdentifier name.toList = false := by
  obtain ⟨bundle, built, typescript, csharp, _⟩ := alike_bundle
  exact ⟨bundle, built, by simp [typescript], "A b", by simp [csharp], by decide⟩

end ProfileConnector.Bundle
