import ProfileConnector.Plan.Property
import ProfileConnector.Proofs.Target.Python
import ProfileConnector.Proofs.Target.TypeScript

/-!
Expressions of entities are lexically closed: no text of a schema or a catalog gets out of its literal or
moves a bracket of the code around it.
-/

namespace ProfileConnector.EntityContext

open Outcome Scan

variable {catalog : Catalog} {schema : Schema} {rootFacet : String} {bundle : Bundle} {info : Option TypeInfo}

theorem balanced_expression (built : Bundle.build catalog schema rootFacet = .ok bundle)
    (listed : ∀ known, info = some known → ∃ name, KeyedList.get? name bundle.typeMap = some known)
    (property : Property) (format : InputFormat) (fields : List FieldMapping) :
    let context : EntityContext := ⟨bundle.typeMap, LeafLimits.ofProperty property⟩
    ∀ plan ∈ [context.entity info fields, context.entityCollection format info fields],
      Balanced TypeScript.quotes (TypeScript.expression plan) ∧ Balanced Python.quotes (Python.expression plan) := by
  intro context plan member
  have types : context.types.Words := fun name info known => Bundle.words_of_get? built known
  have words : ∀ known, info = some known → known.Words := by
    intro known given
    obtain ⟨name, found⟩ := listed known given
    exact types name known found
  have worded : plan.Worded := by
    rcases List.mem_cons.mp member with rfl | later
    · exact worded_entity types words fields
    · exact List.mem_singleton.mp later ▸ worded_entityCollection types words format fields
  exact ⟨TypeScript.balanced_write worded _, Python.closed_term worded _⟩

def awkwardCatalog : Catalog where
  types := [⟨"a\"(b", [⟨"c'[", "graph.a\"(b", true⟩, ⟨"d\\", "Collection(Edm.String)", true⟩], none⟩]
  names_distinct := by decide

def awkwardProperty : Property :=
  { name := "e'\")", type := .string, pattern := some { regex := "[\"'(\\" }, minLength := some (-1) }

def awkwardFields : List FieldMapping :=
  [⟨"c'[.d\\", { headers := ["\"\x7d", "\n"], fallback := some "'" }⟩, ⟨"d\\", { jsonPath := some "$.f[\"(\"][*].g" }⟩]

theorem balanced_expression_awkward : ∃ bundle info, Bundle.build awkwardCatalog {} "a\"(b" = .ok bundle ∧
    KeyedList.get? "a\"(b" bundle.typeMap = some info ∧
    let context : EntityContext := ⟨bundle.typeMap, LeafLimits.ofProperty awkwardProperty⟩
    ∀ plan ∈ [context.entity (some info) awkwardFields, context.entityCollection .json (some info) awkwardFields],
      Balanced TypeScript.quotes (TypeScript.expression plan) ∧ Balanced Python.quotes (Python.expression plan) := by
  have view : (Bundle.build awkwardCatalog {} "a\"(b").map (fun bundle =>
      (KeyedList.get? "a\"(b" bundle.typeMap).map (·.names.ts)) = .ok (some "AB") := by decide +kernel
  obtain ⟨bundle, built, shown⟩ := map_eq_ok.mp view
  obtain ⟨info, found, _⟩ := Option.map_eq_some_iff.mp shown
  refine ⟨bundle, info, built, found, balanced_expression built (fun known given => ?_) awkwardProperty .json awkwardFields⟩
  exact ⟨_, Option.some.inj given ▸ found⟩

end ProfileConnector.EntityContext
