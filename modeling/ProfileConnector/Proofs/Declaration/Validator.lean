import ProfileConnector.Declaration.TypeScript
import ProfileConnector.Proofs.Types.Allocation

/-!
Constants of validators. A validator binds the value of every field to a constant; the inherited fields
and the own ones get their names apart, and the names of the function itself are in use in neither run.
So the constants are distinct just if one run over all fields gives the same names and none of these is a
name of the function.
-/

namespace ProfileConnector

open Outcome

namespace TypeScript.Validator

def constants (validator : Validator) : List String := validator.checks.map (·.constant)

def fieldNames (validator : Validator) : List String := validator.checks.map (·.name)

theorem constants_ofTemplate (template : TypeTemplate) : (ofTemplate template).constants =
    template.inherited.map (·.variableName) ++ template.fields.map (·.variableName) := by
  simp only [constants, ofTemplate, List.map_map, List.map_append]
  rfl

theorem fieldNames_ofTemplate (template : TypeTemplate) : (ofTemplate template).fieldNames =
    template.inherited.map (·.name) ++ template.fields.map (·.name) := by
  simp only [fieldNames, ofTemplate, List.map_map, List.map_append]
  rfl

end TypeScript.Validator

theorem DeclaredField.variableNames_resolveAll {catalog : Catalog} {aliases : AliasTable}
    {properties : List CatalogProperty} {fields : List DeclaredField}
    (resolved : resolveAll catalog aliases [] properties = .ok fields) :
    fields.map (·.variableName) = (Identifier.freshVariables (fields.map (·.name)) []).1 := by
  have pairs := named_resolveAll resolved
  have same := Identifier.length_freshVariables (properties.map (·.name)) []
  have names := congrArg (List.map Prod.fst) pairs
  have given := congrArg (List.map Prod.snd) pairs
  rw [List.map_map, List.map_fst_zip (by omega)] at names
  rw [List.map_map, List.map_snd_zip (by omega)] at given
  exact given.trans (by rw [← names]; rfl)

namespace Bundle

open TypeScript (Validator)

variable {catalog : Catalog} {schema : Schema} {rootFacet : String} {bundle : Bundle}

theorem Made.resolved {synthesis : Synthesis} {declared derived : List TypeTemplate}
    (made : Made catalog schema rootFacet bundle synthesis declared derived) {template : TypeTemplate}
    (member : template ∈ bundle.templates) :
    (∃ own, DeclaredField.resolveAll catalog bundle.aliases [] own = .ok template.fields) ∧
      ∃ others, DeclaredField.resolveAll catalog bundle.aliases [] others = .ok template.inherited := by
  rcases List.mem_append.mp (made.templates ▸ member) with plain | fromDerived
  · obtain ⟨_, type, declares⟩ := made.declares_of_mem plain
    exact ⟨⟨_, declares.fields⟩, _, declares.inherited⟩
  · obtain ⟨type, _, own⟩ := (mem_of_mapM made.derivations template).mp fromDerived
    obtain ⟨fields, resolved, result⟩ := bind_eq_ok.mp own
    cases result
    exact ⟨⟨_, resolved⟩, [], rfl⟩

/-- Two runs from nothing give names apart from each other just if one run gives the same names. -/
theorem nodup_runs_iff (first second : List String) :
    ((Identifier.freshVariables first []).1 ++ (Identifier.freshVariables second []).1).Nodup ↔
      (Identifier.freshVariables first []).1 ++ (Identifier.freshVariables second []).1 =
        (Identifier.freshVariables (first ++ second) []).1 := by
  have alone (names : List String) : (Identifier.freshVariables names []).1.Nodup := by
    simpa using (Identifier.nodup_freshVariables names []).mpr List.nodup_nil
  have apart := Identifier.freshVariables_more_iff second [] (Identifier.freshVariables first []).2
  rw [List.nil_append, Identifier.used_freshVariables] at apart
  rw [Identifier.freshVariables_append, List.append_cancel_left_eq, Identifier.used_freshVariables, eq_comm, apart,
    List.nodup_append, and_iff_right (alone first), and_iff_right (alone second)]
  simp only [List.append_nil, List.mem_reverse]
  exact ⟨fun each given own shared => each given shared given own rfl,
    fun each given shared other own same => each other own (same ▸ shared)⟩

theorem unreserved_iff (names : List String) :
    (∀ given ∈ (Identifier.freshVariables names []).1, given ∉ Validator.reserved) ↔
      ∀ name ∈ names, Identifier.variableBase name ∉ Validator.reserved := by
  have unnumbered : ∀ word ∈ Validator.reserved, ∀ last ∈ word.toList.getLast?, last.isDigit = false := by
    have each : ∀ word ∈ Validator.reserved, word.toList.getLast?.all (fun last => !last.isDigit) = true := by decide
    intro word member last shown
    simpa [Option.mem_def.mp shown] using each word member
  constructor
  · intro apart name member base
    exact apart _ ((Identifier.mem_freshVariables_iff (unnumbered _ base)).mpr ⟨name, member, rfl⟩) base
  · intro apart given taken word
    obtain ⟨name, member, rfl⟩ := (Identifier.mem_freshVariables_iff (unnumbered given word)).mp taken
    exact apart name member word

/--
A validator of a bundle declares every constant once, and none that has the name of its parameters or of
its list of errors, just if no field has one of these names for a variable and the constants are those that
one run over all fields gives, inherited fields first.
-/
theorem validator_constants_iff (built : build catalog schema rootFacet = .ok bundle) {validator : Validator}
    (listed : validator ∈ (TypeScript.Declarations.ofBundle bundle).validators) :
    (validator.constants ++ Validator.reserved).Nodup ↔
      (∀ name ∈ validator.fieldNames, Identifier.variableBase name ∉ Validator.reserved) ∧
        validator.constants = (Identifier.freshVariables validator.fieldNames []).1 := by
  obtain ⟨synthesis, declared, derived, made⟩ := build_ok built
  obtain ⟨template, member, rfl⟩ := List.mem_map.mp listed
  obtain ⟨⟨_, own⟩, _, others⟩ := made.resolved member
  rw [Validator.constants_ofTemplate, Validator.fieldNames_ofTemplate, DeclaredField.variableNames_resolveAll own,
    DeclaredField.variableNames_resolveAll others, ← nodup_runs_iff, List.forall_mem_append, ← unreserved_iff,
    ← unreserved_iff, ← List.forall_mem_append, List.nodup_append]
  constructor
  · exact fun ⟨distinct, _, apart⟩ => ⟨fun given taken word => apart given taken given word rfl, distinct⟩
  · exact fun ⟨apart, distinct⟩ =>
      ⟨distinct, by decide, fun given taken word reserved same => apart given taken (same ▸ reserved)⟩

def staff : Catalog where
  types := [
    ⟨"person", [⟨"name", "Edm.String", true⟩], none⟩,
    ⟨"employee", [⟨"job title", "Edm.String", true⟩, ⟨"jobTitle", "Edm.String", true⟩], some "person"⟩]
  names_distinct := by decide

/-- The constants for an inherited field and for two own fields with like names. -/
theorem validator_constants_iff_employee : ∃ bundle validator, build staff {} "employee" = .ok bundle ∧
    validator ∈ (TypeScript.Declarations.ofBundle bundle).validators ∧
    validator.fieldNames = ["name", "job title", "jobTitle"] ∧
    (validator.constants ++ Validator.reserved).Nodup := by
  have view : ∃ bundle, build staff {} "employee" = .ok bundle ∧
      (TypeScript.Declarations.ofBundle bundle).validators.map
        (fun validator => (validator.constants, validator.fieldNames)) =
        [(["name", "jobTitle", "jobTitle1"], ["name", "job title", "jobTitle"]), (["name"], ["name"])] :=
    map_eq_ok.mp (by decide +kernel)
  obtain ⟨bundle, built, shown⟩ := view
  obtain ⟨validator, listed, same⟩ := List.mem_map.mp (shown ▸ List.mem_cons_self)
  obtain ⟨constants, names⟩ := Prod.mk.inj same
  refine ⟨bundle, validator, built, listed, names, (validator_constants_iff built listed).mpr ?_⟩
  rw [constants, names]
  decide +kernel

def homonyms : Catalog where
  types := [
    ⟨"base", [⟨"a b", "Edm.String", true⟩], none⟩,
    ⟨"facet", [⟨"aB", "Edm.String", true⟩, ⟨"input", "Edm.String", true⟩], some "base"⟩]
  names_distinct := by decide

theorem homonyms_bundle : ∃ bundle, build homonyms {} "facet" = .ok bundle ∧
    (TypeScript.Declarations.ofBundle bundle).validators.map
      (fun validator => (validator.constants, validator.fieldNames)) =
      [(["aB", "aB", "input"], ["a b", "aB", "input"]), (["aB"], ["a b"])] :=
  map_eq_ok.mp (by decide +kernel)

/-- The validator of the facet declares one constant twice, and another one that is its own parameter. -/
theorem constants_repeated : ∃ bundle validator, build homonyms {} "facet" = .ok bundle ∧
    validator ∈ (TypeScript.Declarations.ofBundle bundle).validators ∧
    ¬ validator.constants.Nodup ∧ "input" ∈ validator.constants := by
  obtain ⟨bundle, built, shown⟩ := homonyms_bundle
  obtain ⟨validator, listed, same⟩ := List.mem_map.mp (shown ▸ List.mem_cons_self)
  obtain ⟨constants, _⟩ := Prod.mk.inj same
  refine ⟨bundle, validator, built, listed, ?_⟩
  rw [constants]
  decide

end Bundle

end ProfileConnector
