import ProfileConnector.Proofs.Plan.Worded
import ProfileConnector.Proofs.Text.Scan
import ProfileConnector.Target.TypeScript

/-!
Entities in TypeScript are balanced. Every text of a schema is written as a double-quoted literal, and
the rest is fixed, a number or a word.
-/

namespace ProfileConnector.TypeScript

open Scan Layout

def quotes : List Char := ['"']

theorem marks : Marks quotes := by
  intro quote known
  exact .inl (List.mem_singleton.mp known)

theorem balanced_quote (s : String) : Balanced quotes (Text.quote s) := Scan.balanced_quote List.mem_cons_self s

theorem balanced_indent (level : Nat) : Balanced quotes (indent level) := Layout.balanced_indent (runs_ofList [] rfl) level

variable {a b : String}

/-! ## Reads -/

theorem balanced_sourceLiteral (source : Source) : Balanced quotes (sourceLiteral source) := by
  unfold sourceLiteral
  split
  · exact balanced_quote _
  · refine balanced_list marks fun part member => ?_
    obtain ⟨header, _, rfl⟩ := List.mem_map.mp member
    exact balanced_quote header

theorem balanced_readText (literal : Balanced quotes a) : Balanced quotes (readText a) :=
  ((runs_ofList [')', ')'] rfl).part literal).fixed [] rfl

theorem balanced_readTexts (literal : Balanced quotes a) : Balanced quotes (readTexts a) :=
  ((runs_ofList [')', ')'] rfl).part literal).fixed [] rfl

theorem balanced_readEntryText (relative : String) : Balanced quotes (readEntryText relative) := by
  unfold readEntryText
  split
  · exact runs_ofList [] rfl
  · exact ((runs_ofList [')', ')'] rfl).part (balanced_quote relative)).fixed [] rfl

theorem balanced_readEntryTexts (relative : String) : Balanced quotes (readEntryTexts relative) := by
  unfold readEntryTexts
  split
  · exact runs_ofList [] rfl
  · exact ((runs_ofList [')', ')'] rfl).part (balanced_quote relative)).fixed [] rfl

theorem balanced_withDefault (isCollection : Bool) (expression : Balanced quotes a) (fallback : String) :
    Balanced quotes (withDefault isCollection a fallback) := by
  have helper : Balanced quotes (if isCollection then "applyDefaultCollection" else "applyDefaultString") := by
    split <;> exact runs_ofList [] rfl
  exact (((helper.fixed [')'] rfl).part expression |>.fixed [')'] rfl).part (balanced_quote fallback)).fixed [] rfl

theorem balanced_textLimits (limits : Constraints) : ∀ part ∈ textLimits limits, Balanced quotes part := by
  intro part member
  simp only [textLimits, List.mem_append, Option.mem_toList, Option.map_eq_some_iff] at member
  obtain ((⟨n, _, rfl⟩ | ⟨n, _, rfl⟩) | ⟨pattern, _, rfl⟩) | ⟨format, _, rfl⟩ := member
  · exact (runs_ofList [] rfl).part (balanced_int marks n)
  · exact (runs_ofList [] rfl).part (balanced_int marks n)
  · exact (runs_ofList [] rfl).part (balanced_quote pattern)
  · exact (runs_ofList [] rfl).part (balanced_quote format)

theorem balanced_validated {type : PropertyType} (text : type.isNumeric = false) (name : String)
    (expression : Balanced quotes a) (limits : Constraints) : Balanced quotes (validated type name a limits) := by
  have helper : Balanced quotes (if type.isCollection then "validateStringCollection" else "validateString") := by
    split <;> exact runs_ofList [] rfl
  unfold validated
  simp only [text, Bool.false_eq_true, if_false]
  split
  · exact expression
  · split
    · exact expression
    · have shown := balanced_items marks (balanced_textLimits limits)
      exact ((((helper.fixed [')'] rfl).part (balanced_quote name) |>.fixed [')'] rfl).part expression
        |>.fixed ['}', ')'] rfl).part shown).fixed [] rfl

theorem balanced_leaf {type : PropertyType} (text : type.isNumeric = false) (isCollection : Bool)
    (expression : Balanced quotes a) (read : LeafRead) :
    let defaulted := match read.fallback with
      | some fallback => withDefault isCollection a fallback
      | none => a
    Balanced quotes (if read.limits.hasString then validated type read.property defaulted read.limits else defaulted) := by
  have defaulted : Balanced quotes (match read.fallback with
      | some fallback => withDefault isCollection a fallback
      | none => a) := by
    cases read.fallback with
    | some fallback => exact balanced_withDefault isCollection expression fallback
    | none => exact expression
  simp only
  split
  · exact balanced_validated text _ defaulted _
  · exact defaulted

theorem balanced_origin {ofRow : Source → String} {ofEntry : String → String}
    (row : ∀ source, Balanced quotes (ofRow source)) (entry : ∀ relative, Balanced quotes (ofEntry relative))
    (origin : Origin) : Balanced quotes (match origin with
      | .row source => ofRow source
      | .entry relative => ofEntry relative) := by
  cases origin with
  | row source => exact row source
  | entry relative => exact entry relative

theorem balanced_single (read : LeafRead) : Balanced quotes (single read) := by
  have expression := balanced_origin (fun source => balanced_readText (balanced_sourceLiteral source))
    balanced_readEntryText read.origin
  exact balanced_leaf rfl false expression read

theorem balanced_many (read : LeafRead) : Balanced quotes (many read) := by
  have expression := balanced_origin (fun source => balanced_readTexts (balanced_sourceLiteral source))
    balanced_readEntryTexts read.origin
  exact balanced_leaf rfl true expression read

/-! ## Construction -/

theorem balanced_entryLines {entries : List (String × String)}
    (each : ∀ key value, (key, value) ∈ entries → Balanced quotes value) (level : Nat) :
    Balanced quotes (",\n".intercalate (entries.map fun (key, value) =>
      s!"{indent (level + 1)}{Text.quote key}: {value}")) := by
  refine balanced_intercalate (runs_ofList [] rfl) fun line member => ?_
  obtain ⟨⟨key, value⟩, listed, rfl⟩ := List.mem_map.mp member
  exact (((balanced_indent (level + 1)).part (balanced_quote key)).fixed [] rfl).part (each key value listed)

theorem balanced_objectLiteral {entries : List (String × String)}
    (each : ∀ key value, (key, value) ∈ entries → Balanced quotes value) (level : Nat) :
    Balanced quotes (objectLiteral entries level) := by
  unfold objectLiteral
  split
  · exact runs_ofList [] rfl
  · have lines := balanced_entryLines each level
    exact ((((runs_ofList ['}'] rfl).part lines).fixed ['}'] rfl).part (balanced_indent level)).fixed [] rfl

theorem balanced_typedObject {typeName : String} (word : Balanced quotes typeName) {entries : List (String × String)}
    (each : ∀ key value, (key, value) ∈ entries → Balanced quotes value) (level : Nat) :
    Balanced quotes (typedObject typeName entries level) :=
  ((((runs_ofList [')'] rfl).part (balanced_objectLiteral each level)).fixed [')'] rfl).part word).fixed [] rfl

theorem balanced_converted (descriptor : Descriptor) (expression : Balanced quotes a) :
    Balanced quotes (converted descriptor a) := by
  have parser {name parser : String} (found : leafParser? name = some parser) : Balanced quotes parser := by
    unfold leafParser? at found
    repeat' split at found
    all_goals cases found
    all_goals exact runs_ofList [] rfl
  unfold converted
  split
  · exact expression
  · split
    · rename_i found
      exact (((parser found).fixed [')'] rfl).part expression).fixed [] rfl
    · exact expression

theorem balanced_serialized (expression : Balanced quotes a) : Balanced quotes (serialized a) :=
  ((runs_ofList [')'] rfl).part expression).fixed [] rfl

theorem balanced_singletonList (value : Balanced quotes a) : Balanced quotes (singletonList a) :=
  ((((runs_ofList [')'] rfl).part value).fixed [']', ')'] rfl).part value).fixed [] rfl

theorem balanced_picked (isCollection : Bool) (slot : Nat) : Balanced quotes (picked isCollection (slotName slot)) := by
  have helper : Balanced quotes (if isCollection then "getCollectionValue" else "getValue") := by
    split <;> exact runs_ofList [] rfl
  exact ((helper.fixed [')'] rfl).part (balanced_slotName marks slot)).fixed [] rfl

/-! ## Blocks -/

theorem balanced_filled (read : Balanced quotes a) (level : Nat) : Balanced quotes (filled a level) := by
  have inner := balanced_indent (level + 1)
  have chain : Chain quotes [] [
      "(() => \x7b",
      s!"{indent (level + 1)}const values = {a};",
      s!"{indent (level + 1)}return values.length > 0 ? values : undefined;",
      s!"{indent level}\x7d)()"] [] :=
    .cons (runs_ofList ['}', ')'] rfl) <|
    .cons (((inner.fixed ['}', ')'] rfl).part read).fixed ['}', ')'] rfl) <|
    .cons (inner.fixed ['}', ')'] rfl) <|
    .cons ((balanced_indent level).fixed [] rfl) .nil
  exact chain.runs marks

theorem balanced_mapped {element : String} (read : Balanced quotes a) (body : Balanced quotes b)
    (word : Balanced quotes element) (absentIfEmpty : Bool) (level : Nat) :
    Balanced quotes (mapped a b element absentIfEmpty level) := by
  have inner := balanced_indent (level + 1)
  cases absentIfEmpty with
  | false => exact ((read.fixed [')'] rfl).part body).fixed [] rfl
  | true =>
    have chain : Chain quotes [] [
        "(() => \x7b",
        s!"{indent (level + 1)}const values = {a};",
        s!"{indent (level + 1)}if (values.length === 0) return undefined;",
        s!"{indent (level + 1)}return values.map((value): {element} => {b});",
        s!"{indent level}\x7d)()"] [] :=
      .cons (runs_ofList ['}', ')'] rfl) <|
      .cons (((inner.fixed ['}', ')'] rfl).part read).fixed ['}', ')'] rfl) <|
      .cons (inner.fixed ['}', ')'] rfl) <|
      .cons (((((inner.fixed [')', '}', ')'] rfl).part word).fixed [')', '}', ')'] rfl).part body).fixed ['}', ')'] rfl) <|
      .cons ((balanced_indent level).fixed [] rfl) .nil
    exact chain.runs marks

theorem chain_bindings {reads : List (String × String)}
    (each : ∀ name read, (name, read) ∈ reads → Balanced quotes name ∧ Balanced quotes read) (level : Nat) :
    Chain quotes ['}', ')'] (reads.map fun (name, read) =>
      s!"{indent (level + 1)}const {name} = {read};") ['}', ')'] := by
  refine chain_balanced (fun line member => ?_) _
  obtain ⟨⟨name, read⟩, listed, rfl⟩ := List.mem_map.mp member
  obtain ⟨name, read⟩ := each name read listed
  exact (((((balanced_indent (level + 1)).fixed [] rfl).part name).fixed [] rfl).part read).fixed [] rfl

theorem balanced_broadcast {reads : List (String × String)} {element : String}
    (each : ∀ name read, (name, read) ∈ reads → Balanced quotes name ∧ Balanced quotes read) (body : Balanced quotes b)
    (word : Balanced quotes element) (absentIfEmpty : Bool) (level : Nat) :
    Balanced quotes (broadcast reads b element absentIfEmpty level) := by
  have inner := balanced_indent (level + 1)
  have step := balanced_indent (level + 2)
  -- The lines form a chain: each takes up the brackets that the lines before it have left open.
  have names : Balanced quotes (items (reads.map Prod.fst)) := by
    refine balanced_items marks fun name member => ?_
    obtain ⟨⟨name, read⟩, listed, rfl⟩ := List.mem_map.mp member
    exact (each name read listed).1
  have bindings := chain_bindings each level
  have absent : Chain quotes ['}', ')'] (if absentIfEmpty then
      [s!"{indent (level + 1)}if (maxLen === 0) return undefined;"] else []) ['}', ')'] := by
    split
    · exact .cons (inner.fixed ['}', ')'] rfl) .nil
    · exact .nil
  have lengths : Chain quotes ['}', ')'] [
      s!"{indent (level + 1)}const lengths = [{items (reads.map Prod.fst)}].map((value) => value.length);",
      s!"{indent (level + 1)}const maxLen = Math.max(0, ...lengths);"] ['}', ')'] :=
    .cons (((inner.fixed [']', '}', ')'] rfl).part names).fixed ['}', ')'] rfl) <|
    .cons (inner.fixed ['}', ')'] rfl) .nil
  have loop : Chain quotes ['}', ')'] [
      s!"{indent (level + 1)}const getValue = (values: string[], index: number): string => \x7b",
      s!"{indent (level + 2)}if (values.length === 0) return \"\";",
      s!"{indent (level + 2)}if (values.length === 1) return values[0] ?? \"\";",
      s!"{indent (level + 2)}return values[index] ?? \"\";",
      s!"{indent (level + 1)}\x7d;",
      s!"{indent (level + 1)}const getCollectionValue = (values: string[], index: number): string[] => \x7b",
      s!"{indent (level + 2)}if (values.length === 0) return [];",
      s!"{indent (level + 2)}if (values.length === 1) return [values[0] ?? \"\"];",
      s!"{indent (level + 2)}return index < values.length ? [values[index] ?? \"\"] : [];",
      s!"{indent (level + 1)}\x7d;",
      s!"{indent (level + 1)}const results: Array<{element}> = [];",
      s!"{indent (level + 1)}for (let index = 0; index < maxLen; index++) \x7b",
      s!"{indent (level + 2)}results.push({b});",
      s!"{indent (level + 1)}\x7d",
      s!"{indent (level + 1)}return results;",
      s!"{indent level}\x7d)()"] [] :=
    .cons (inner.fixed ['}', '}', ')'] rfl) <|
    .cons (step.fixed ['}', '}', ')'] rfl) <|
    .cons (step.fixed ['}', '}', ')'] rfl) <|
    .cons (step.fixed ['}', '}', ')'] rfl) <|
    .cons (inner.fixed ['}', ')'] rfl) <|
    .cons (inner.fixed ['}', '}', ')'] rfl) <|
    .cons (step.fixed ['}', '}', ')'] rfl) <|
    .cons (step.fixed ['}', '}', ')'] rfl) <|
    .cons (step.fixed ['}', '}', ')'] rfl) <|
    .cons (inner.fixed ['}', ')'] rfl) <|
    .cons (((inner.fixed ['}', ')'] rfl).part word).fixed ['}', ')'] rfl) <|
    .cons (inner.fixed ['}', '}', ')'] rfl) <|
    .cons (((step.fixed [')', '}', '}', ')'] rfl).part body).fixed ['}', '}', ')'] rfl) <|
    .cons (inner.fixed ['}', ')'] rfl) <|
    .cons (inner.fixed ['}', ')'] rfl) <|
    .cons ((balanced_indent level).fixed [] rfl) .nil
  have opened : Chain quotes [] ["(() => \x7b"] ['}', ')'] := .cons (runs_ofList ['}', ')'] rfl) .nil
  exact ((((opened.append bindings).append lengths).append absent).append loop).runs marks

theorem balanced_eachEntry (root : String) (body : Balanced quotes a) : Balanced quotes (eachEntry root a) :=
  ((((runs_ofList [')'] rfl).part (balanced_quote root)).fixed [')'] rfl).part body).fixed [] rfl

/-! ## Plans -/

theorem balanced_names {names : DisplayNames} (words : names.Words) : Balanced quotes names.ts :=
  balanced_word marks words.ts

theorem balanced_write {plan : Plan} (worded : plan.Worded) (level : Nat) : Balanced quotes (write level plan) := by
  induction worded generalizing level with
  | absent => exact runs_ofList [] rfl
  | single read => exact balanced_single read
  | many read => exact balanced_many read
  | filled read => exact balanced_filled (balanced_many read) level
  | element => exact runs_ofList [] rfl
  | elementList => exact balanced_singletonList (runs_ofList [] rfl)
  | picked slot => exact balanced_picked false slot
  | pickedList slot => exact balanced_picked true slot
  | converted descriptor _ ih => exact balanced_converted descriptor (ih level)
  | record _ ih =>
    refine balanced_objectLiteral (fun key value member => ?_) level
    rw [writeEntries_eq] at member
    obtain ⟨⟨_, inner⟩, listed, same⟩ := List.mem_map.mp member
    cases same
    exact ih key inner listed (level + 1)
  | typed words _ ih =>
    refine balanced_typedObject (balanced_names words) (fun key value member => ?_) level
    rw [writeMembers_eq] at member
    obtain ⟨⟨property, inner⟩, listed, same⟩ := List.mem_map.mp member
    cases same
    exact ih property inner listed (level + 1)
  | serialized _ ih => exact balanced_serialized (ih level)
  | mapped read absentIfEmpty words _ ih =>
    exact balanced_mapped (balanced_many read) (ih (level + 2)) (balanced_names words) absentIfEmpty level
  | broadcast reads absentIfEmpty words _ ih =>
    refine balanced_broadcast (fun name text member => ?_) (ih (level + 2)) (balanced_names words) absentIfEmpty level
    obtain ⟨⟨slot, read⟩, _, same⟩ := List.mem_map.mp member
    cases same
    exact ⟨balanced_slotName marks slot, balanced_many read⟩
  | eachEntry root _ ih => exact balanced_eachEntry root (ih (level + 2))

end ProfileConnector.TypeScript
