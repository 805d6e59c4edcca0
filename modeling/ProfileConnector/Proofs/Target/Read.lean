import ProfileConnector.Proofs.Target.Block

/-!
Reads of one text and of all texts. In every target a leaf that is read as one text is written differently
from the same leaf read as a list, be it bare, with its default or with its limits.
-/

namespace ProfileConnector

open Outcome
open Text (quote)

/-! ## Helpers of two names -/

section Named

variable {word word' : String} (helper : Apart word word')

include helper

theorem apart_origin (literal : Source → String) (behind : String) {entry entry' : String → String}
    (entries : ∀ relative, Apart (entry relative) (entry' relative)) (origin : Origin) :
    Apart
      (match origin with
        | .row source => word ++ literal source ++ behind
        | .entry relative => entry relative)
      (match origin with
        | .row source => word' ++ literal source ++ behind
        | .entry relative => entry' relative) := by
  cases origin with
  | row source => exact (helper.append _ _).append _ _
  | entry relative => exact entries relative

theorem apart_defaulted {a b : String} (apart : Apart a b) (fallback : Option String) :
    Apart
      (match fallback with
        | some fallback => word ++ a ++ ", " ++ quote fallback ++ ")"
        | none => a)
      (match fallback with
        | some fallback => word' ++ b ++ ", " ++ quote fallback ++ ")"
        | none => b) := by
  cases fallback with
  | none => exact apart
  | some fallback => exact (((helper.append _ _).append _ _).append _ _).append _ _

end Named

/-! ## TypeScript -/

namespace TypeScript

theorem apart_entry (relative : String) : Apart (readEntryText relative) (readEntryTexts relative) := by
  simp only [readEntryText, readEntryTexts]
  split
  · exact .of_any (by simp)
  · have helper : Apart "parseString(readEntryValue(entry, " "parseStringCollection(readEntryValue(entry, " :=
      .of_any (by simp)
    exact (helper.append _ _).append _ _

theorem validated_text (name expression : String) (limits : Constraints) :
    validated .string name expression limits = if (textLimits limits).isEmpty then expression else
      "validateString" ++ "(" ++ quote name ++ ", " ++ expression ++ ", \x7b " ++
        Layout.items (textLimits limits) ++ " \x7d)" := rfl

theorem apart_validated {a b : String} (apart : Apart a b) (name : String) (limits : Constraints) :
    Apart (validated .string name a limits) (validated .stringCollection name b limits) := by
  have helper : Apart ("validateString" ++ "(") ("validateStringCollection" ++ "(") := .of_any (by simp)
  rw [validated_text, validated_texts]
  split
  · exact apart
  · exact (((((helper.append _ _).append _ _).append _ _).append _ _).append _ _).append _ _

theorem apart_many (read : LeafRead) : Apart (single read) (many read) := by
  have texts : Apart "parseString(readSourceValue(row, " "parseStringCollection(readSourceValue(row, " :=
    .of_any (by simp)
  have defaults : Apart ("applyDefaultString" ++ "(") ("applyDefaultCollection" ++ "(") := .of_any (by simp)
  have origins := apart_origin texts sourceLiteral "))" apart_entry read.origin
  have defaulted := apart_defaulted defaults origins read.fallback
  simp only [single, many]
  split
  · exact apart_validated defaulted _ _
  · exact defaulted

end TypeScript

/-! ## C# -/

namespace CSharp

theorem apart_entry (relative : String) : Apart (readEntryText relative) (readEntryTexts relative) := by
  have helper : Apart "RowParser.ParseString(entry, " "RowParser.ParseStringCollection(entry, " := .of_any (by simp)
  exact (helper.append _ _).append _ _

theorem validated_text (name expression : String) (limits : Constraints) :
    validated .string name expression limits none = if !limits.hasString then .ok expression else
      (textLimits limits).map fun arguments =>
        "Validation." ++ "ValidateString" ++ "(" ++ quote name ++ ", " ++ expression ++ ", " ++ arguments ++ ")" := rfl

theorem apart_validated {a b s t name : String} {limits : Constraints} (apart : Apart a b)
    (one : validated .string name a limits none = .ok s)
    (all : validated .stringCollection name b limits none = .ok t) : Apart s t := by
  have helper :
      Apart ("Validation." ++ "ValidateString" ++ "(") ("Validation." ++ "ValidateStringCollection" ++ "(") :=
    .of_any (by simp)
  rw [validated_text] at one
  rw [validated_texts] at all
  split at one
  · rename_i free
    rw [if_pos free] at all
    cases one
    cases all
    exact apart
  · rename_i limited
    rw [if_neg limited] at all
    obtain ⟨arguments, _, rfl⟩ := map_eq_ok.mp one
    obtain ⟨arguments', _, rfl⟩ := map_eq_ok.mp all
    exact (((((helper.append _ _).append _ _).append _ _).append _ _).append _ _).append _ _

theorem apart_many {read : LeafRead} {s t : String} (one : single read = .ok s) (all : many read = .ok t) :
    Apart s t := by
  have texts : Apart "RowParser.ParseString(row, " "RowParser.ParseStringCollection(row, " := .of_any (by simp)
  have defaults : Apart ("RowParser." ++ "ApplyDefault" ++ "(") ("RowParser." ++ "ApplyDefaultCollection" ++ "(") :=
    .of_any (by simp)
  have origins := apart_origin texts sourceLiteral ")" apart_entry read.origin
  exact apart_validated (apart_defaulted defaults origins read.fallback) one all

end CSharp

/-! ## Python -/

namespace Python

theorem name_of_mem {helper : Helper} {name : String} (listed : (name, helper) ∈ Helper.table) : helper.name = name := by
  have each : ∀ entry ∈ Helper.table, entry.2.name = entry.1 := by decide
  exact each _ listed

theorem apart_call {helper helper' : Helper} {name name' : String} (own : (name, helper) ∈ Helper.table)
    (other : (name', helper') ∈ Helper.table) (apart : Apart (name ++ "(") (name' ++ "("))
    (arguments arguments' : List Term) (options options' : List (String × Constant)) (level : Nat) :
    Apart ((Term.call helper arguments options).write level) ((Term.call helper' arguments' options').write level) := by
  rw [Term.write_call, Term.write_call, name_of_mem own, name_of_mem other]
  exact (apart.append _ _).append _ _

theorem apart_origin (origin : Origin) (level : Nat) :
    Apart
      ((match origin with
        | .row source => readText (sourceLiteral source)
        | .entry relative => readEntryText relative).write level)
      ((match origin with
        | .row source => readTexts (sourceLiteral source)
        | .entry relative => readEntryTexts relative).write level) := by
  have helper : Apart ("parse_string" ++ "(") ("parse_string_collection" ++ "(") := .of_any (by simp)
  cases origin <;> exact apart_call (by simp [Helper.table]) (by simp [Helper.table]) helper _ _ _ _ level

theorem apart_defaulted {a b : Term} {level : Nat} (apart : Apart (a.write level) (b.write level))
    (fallback : Option String) :
    Apart
      ((match fallback with
        | some fallback => withDefault false a fallback
        | none => a).write level)
      ((match fallback with
        | some fallback => withDefault true b fallback
        | none => b).write level) := by
  cases fallback with
  | none => exact apart
  | some fallback =>
    have helper : Apart ("apply_default_string" ++ "(") ("apply_default_collection" ++ "(") := .of_any (by simp)
    exact apart_call (by simp [Helper.table]) (by simp [Helper.table]) helper _ _ _ _ level

theorem apart_validated {a b : Term} {level : Nat} (apart : Apart (a.write level) (b.write level)) (name : String)
    (limits : Constraints) :
    Apart ((validated .string name a limits).write level)
      ((validated .stringCollection name b limits).write level) := by
  have text : validated .string name a limits = if (textLimits limits).isEmpty then a else
      .call .validateString [.literal name, a] (textLimits limits) := rfl
  have texts : validated .stringCollection name b limits = if (textLimits limits).isEmpty then b else
      .call .validateStringCollection [.literal name, b] (textLimits limits) := rfl
  have helper : Apart ("validate_string" ++ "(") ("validate_string_collection" ++ "(") := .of_any (by simp)
  rw [text, texts]
  split
  · exact apart
  · exact apart_call (by simp [Helper.table]) (by simp [Helper.table]) helper _ _ _ _ level

theorem apart_many (read : LeafRead) (level : Nat) : Apart ((single read).write level) ((many read).write level) :=
  apart_validated (apart_defaulted (apart_origin read.origin level) read.fallback) _ _

end Python

/-! ## Readers -/

namespace LeafReader

variable {leaf : LeafLimits} {reader : LeafReader} {mapping : FieldMapping}

theorem baseLevel_single (leaf : LeafLimits) (mapping : FieldMapping) (reader : LeafReader) :
    (reader.single leaf mapping).baseLevel = 1 := by
  cases reader <;> rfl

/-- Whatever a leaf is read from, its one text is written differently from the list of its texts. -/
theorem apart_many {target : Target} {e e' : String} (one : (reader.single leaf mapping).write target = .ok e)
    (all : (reader.many leaf mapping).write target = .ok e') : Apart e e' := by
  cases target with
  | typescript =>
    have element : Apart "value" (TypeScript.singletonList "value") :=
      .of_any (by simp [TypeScript.singletonList, toString])
    have picked : Apart ("getValue" ++ "(") ("getCollectionValue" ++ "(") := .of_any (by simp)
    cases one
    cases all
    cases reader with
    | fromRow => exact TypeScript.apart_many _
    | fromElement => exact element
    | fromSlots slots => exact (picked.append _ _).append _ _
    | fromEntry relatives => exact TypeScript.apart_many _
  | csharp =>
    have list : Starts 'n' "new List<string> \x7b " := by simp [Starts]
    have element : Apart "value" (CSharp.singletonList "value") :=
      Avoids.apart ⟨'v', by simp, by decide⟩ ((list.append _).append _)
    have picked : Apart ("GetValue" ++ "(") ("GetCollectionValue" ++ "(") := .of_any (by simp)
    cases reader with
    | fromRow => exact CSharp.apart_many one all
    | fromElement =>
      cases one
      cases all
      exact element
    | fromSlots slots =>
      cases one
      cases all
      exact (picked.append _ _).append _ _
    | fromEntry relatives => exact CSharp.apart_many one all
  | python =>
    have element : Apart ((Term.variable "value").write 1) ((Term.singleton (.variable "value")).write 1) :=
      .of_any (by simp [Term.write_variable, Term.write_singleton, toString])
    have picked : Apart ("get_value" ++ "(") ("get_collection_value" ++ "(") := .of_any (by simp)
    cases one
    cases all
    cases reader with
    | fromRow => exact Python.apart_many _ 1
    | fromElement => exact element
    | fromSlots slots => exact Python.apart_call (by simp [Helper.table]) (by simp [Helper.table]) picked _ _ _ _ 1
    | fromEntry relatives => exact Python.apart_many _ 1

end LeafReader

/-! ## Conversions -/

namespace Plan

variable {descriptor : Descriptor}

theorem write_converted (collection : descriptor.isCollection = true) {value : Plan} (base : value.baseLevel = 1)
    (target : Target) : (Plan.converted descriptor value).write target = value.write target := by
  cases target with
  | typescript =>
    have same (text : String) : TypeScript.converted descriptor text = text := by
      simp [TypeScript.converted, collection]
    change Except.ok (TypeScript.converted descriptor (TypeScript.write 1 value)) =
      .ok (TypeScript.write value.baseLevel value)
    rw [same, base]
  | csharp =>
    have same (text : String) : CSharp.converted descriptor text = text := by
      simp [CSharp.converted, collection]
    change (CSharp.write 1 value >>= fun text => pure (CSharp.converted descriptor text)) =
      CSharp.write value.baseLevel value
    simp only [same, base, bind_pure]
  | python =>
    have same (term : Term) : Python.converted descriptor term = term := by
      simp [Python.converted, collection]
    change Except.ok ((Python.converted descriptor (Python.term value)).write 1) =
      .ok ((Python.term value).write value.baseLevel)
    rw [same, base]

end Plan

end ProfileConnector
