import ProfileConnector.Proofs.Plan.Worded
import ProfileConnector.Proofs.Script.Writing
import ProfileConnector.Proofs.Text.Scan
import ProfileConnector.Target.Python

/-!
Entities in Python are balanced. Texts of a schema are written as double-quoted literals, patterns and
formats of limits as literals in either quotation mark, and the rest is fixed, a number or a word.
-/

namespace ProfileConnector.Python

open Scan Layout

def quotes : List Char := ['"', '\'']

theorem marks : Marks quotes := by
  intro quote known
  simpa [quotes] using known

theorem balanced_quote (s : String) : Balanced quotes (Text.quote s) := Scan.balanced_quote List.mem_cons_self s

theorem balanced_spell (s : String) : Balanced quotes (Text.spell s) :=
  Scan.balanced_spell (by decide) (by decide) s

theorem balanced_indent (level : Nat) : Balanced quotes (Term.indent level) :=
  Layout.balanced_indent (runs_ofList [] rfl) level

theorem balanced_helper (helper : Helper) : Balanced quotes helper.name := by
  cases helper <;> exact runs_ofList [] rfl

/-! ## Terms -/

def Closed (term : Term) : Prop := ∀ level, Balanced quotes (term.write level)

theorem closed_absent : Closed .absent := fun _ => runs_ofList [] rfl

theorem closed_variable {name : String} (word : Balanced quotes name) : Closed (.variable name) := fun _ => word

theorem closed_literal (text : String) : Closed (.literal text) := fun _ => balanced_quote text

theorem closed_literals (texts : List String) : Closed (.literals texts) := by
  intro level
  rw [Term.write_literals]
  refine balanced_list marks fun part member => ?_
  obtain ⟨text, _, rfl⟩ := List.mem_map.mp member
  exact balanced_quote text

theorem balanced_writeAll {terms : List Term} (each : ∀ term ∈ terms, Closed term) (level : Nat) :
    ∀ part ∈ Term.writeAll level terms, Balanced quotes part := by
  intro part member
  rw [Term.writeAll_eq] at member
  obtain ⟨term, listed, rfl⟩ := List.mem_map.mp member
  exact each term listed level

theorem closed_call (helper : Helper) {arguments : List Term} (each : ∀ term ∈ arguments, Closed term)
    {options : List (String × Constant)} (shown : ∀ part ∈ Term.writeOptions options, Balanced quotes part) :
    Closed (.call helper arguments options) := by
  intro level
  have inside : Balanced quotes (items (Term.writeAll level arguments ++ Term.writeOptions options)) :=
    balanced_items marks fun part member =>
      (List.mem_append.mp member).elim (balanced_writeAll each level part) (shown part)
  rw [Term.write_call]
  exact (((balanced_helper helper).fixed [')'] rfl).part inside).fixed [] rfl

theorem balanced_entryLines {entries : List (String × Term)}
    (each : ∀ key value, (key, value) ∈ entries → Closed value) (level : Nat) :
    Balanced quotes (",\n".intercalate ((Term.writeEntries (level + 1) entries).map fun (key, value) =>
      s!"{Term.indent (level + 1)}{Text.quote key}: {value}")) := by
  refine balanced_intercalate (runs_ofList [] rfl) fun line member => ?_
  rw [Term.writeEntries_eq, List.map_map] at member
  obtain ⟨⟨key, value⟩, owned, rfl⟩ := List.mem_map.mp member
  exact (((balanced_indent (level + 1)).part (balanced_quote key)).fixed [] rfl).part
    (each key value owned (level + 1))

theorem closed_dictionary {entries : List (String × Term)}
    (each : ∀ key value, (key, value) ∈ entries → Closed value) : Closed (.dictionary entries) := by
  intro level
  rw [Term.write_dictionary]
  unfold Term.writeDictionary
  split
  · exact runs_ofList [] rfl
  · have lines := balanced_entryLines each level
    exact ((((runs_ofList ['}'] rfl).part lines).fixed ['}'] rfl).part (balanced_indent level)).fixed [] rfl

theorem closed_construct {typeName : String} (word : Balanced quotes typeName) {value : Term} (closed : Closed value) :
    Closed (.construct typeName value) := by
  intro level
  rw [Term.write_construct]
  exact ((word.fixed [')'] rfl).part (closed level)).fixed [] rfl

theorem closed_singleton {value : Term} (closed : Closed value) : Closed (.singleton value) := by
  intro level
  rw [Term.write_singleton]
  exact ((((runs_ofList [']', ')'] rfl).part (closed level)).fixed [')'] rfl).part (closed level)).fixed [] rfl

theorem closed_orAbsent {value : Term} (closed : Closed value) : Closed (.orAbsent value) := by
  intro level
  rw [Term.write_orAbsent]
  exact ((runs_ofList [')'] rfl).part (closed level)).fixed [] rfl

theorem closed_comprehension {body source : Term} {name : String} (inner : Closed body) (word : Balanced quotes name)
    (outer : Closed source) : Closed (.comprehension body name source) := by
  intro level
  rw [Term.write_comprehension]
  exact ((((((runs_ofList [']'] rfl).part (inner (level + 2))).fixed [']'] rfl).part word).fixed [']'] rfl).part
    (outer level)).fixed [] rfl

theorem closed_positions {lists : List Term} (each : ∀ term ∈ lists, Closed term) : Closed (.positions lists) := by
  intro level
  rw [Term.write_positions]
  exact ((runs_ofList [')', ')'] rfl).part (balanced_items marks (balanced_writeAll each level))).fixed [] rfl

theorem closed_apply {names : List String} (words : ∀ name ∈ names, Balanced quotes name) {body : Term}
    (inner : ∀ level, Balanced quotes (Term.writeBody level body)) {arguments : List Term}
    (each : ∀ term ∈ arguments, Closed term) : Closed (.apply names body arguments) := by
  intro level
  have lines : Balanced quotes (",\n".intercalate ((Term.writeAll level arguments).map fun argument =>
      Term.indent (level + 1) ++ argument)) := by
    refine balanced_intercalate (runs_ofList [] rfl) fun line member => ?_
    obtain ⟨text, listed, rfl⟩ := List.mem_map.mp member
    exact (balanced_indent (level + 1)).append (balanced_writeAll each level text listed)
  rw [Term.write_apply]
  exact ((((((((runs_ofList [')'] rfl).part (balanced_items marks words)).fixed [')'] rfl).part (inner level)).fixed
    [')'] rfl).part lines).fixed [')'] rfl).part (balanced_indent level)).fixed [] rfl

/-! ## Reads -/

theorem closed_sourceLiteral (source : Source) : Closed (sourceLiteral source) := by
  unfold sourceLiteral
  split
  · exact closed_literal _
  · exact closed_literals _

theorem closed_plain (helper : Helper) {arguments : List Term} (each : ∀ term ∈ arguments, Closed term) :
    Closed (.call helper arguments []) :=
  closed_call helper each fun _ member => absurd member List.not_mem_nil

theorem closed_one (helper : Helper) {argument : Term} (closed : Closed argument) :
    Closed (.call helper [argument] []) :=
  closed_plain helper fun _ member => List.mem_singleton.mp member ▸ closed

theorem closed_two (helper : Helper) {first second : Term} (closed : Closed first) (other : Closed second) :
    Closed (.call helper [first, second] []) := by
  refine closed_plain helper fun term member => ?_
  rcases List.mem_cons.mp member with rfl | later
  · exact closed
  · exact List.mem_singleton.mp later ▸ other

theorem closed_row : Closed (.variable "row") := closed_variable (runs_ofList [] rfl)

theorem closed_readText (source : Source) : Closed (readText (sourceLiteral source)) :=
  closed_one _ (closed_two _ closed_row (closed_sourceLiteral source))

theorem closed_readTexts (source : Source) : Closed (readTexts (sourceLiteral source)) :=
  closed_one _ (closed_two _ closed_row (closed_sourceLiteral source))

theorem closed_readRawEntry (relative : String) : Closed (readRawEntry relative) :=
  closed_two _ (closed_variable (runs_ofList [] rfl)) (closed_literal relative)

theorem closed_withDefault (isCollection : Bool) {term : Term} (closed : Closed term) (fallback : String) :
    Closed (withDefault isCollection term fallback) :=
  closed_two _ closed (closed_literal fallback)

theorem balanced_textLimits (limits : Constraints) :
    ∀ part ∈ Term.writeOptions (textLimits limits), Balanced quotes part := by
  intro part member
  obtain ⟨⟨name, value⟩, listed, rfl⟩ := List.mem_map.mp member
  simp only [textLimits, List.mem_append, Option.mem_toList, Option.map_eq_some_iff, Prod.mk.injEq] at listed
  obtain ((⟨n, _, rfl, rfl⟩ | ⟨n, _, rfl, rfl⟩) | ⟨text, _, rfl, rfl⟩) | ⟨text, _, rfl, rfl⟩ := listed
  · exact ((runs_ofList [] rfl).fixed [] rfl).part (balanced_int marks n)
  · exact ((runs_ofList [] rfl).fixed [] rfl).part (balanced_int marks n)
  · exact ((runs_ofList [] rfl).fixed [] rfl).part (balanced_spell text)
  · exact ((runs_ofList [] rfl).fixed [] rfl).part (balanced_spell text)

theorem closed_validated {type : PropertyType} (text : type.isNumeric = false) (name : String) {term : Term}
    (closed : Closed term) (limits : Constraints) : Closed (validated type name term limits) := by
  unfold validated
  simp only [text, Bool.false_eq_true, if_false]
  split
  · exact closed
  · split
    · exact closed
    · refine closed_call _ (fun argument member => ?_) (balanced_textLimits limits)
      rcases List.mem_cons.mp member with rfl | later
      · exact closed_literal name
      · exact List.mem_singleton.mp later ▸ closed

theorem closed_defaulted (isCollection : Bool) {term : Term} (closed : Closed term) (fallback : Option String) :
    Closed (match fallback with
      | some fallback => withDefault isCollection term fallback
      | none => term) := by
  cases fallback with
  | some fallback => exact closed_withDefault isCollection closed fallback
  | none => exact closed

theorem closed_origin {ofRow : Source → Term} {ofEntry : String → Term} (row : ∀ source, Closed (ofRow source))
    (entry : ∀ relative, Closed (ofEntry relative)) (origin : Origin) : Closed (match origin with
      | .row source => ofRow source
      | .entry relative => ofEntry relative) := by
  cases origin with
  | row source => exact row source
  | entry relative => exact entry relative

theorem closed_single (read : LeafRead) : Closed (single read) := by
  have entry (relative : String) : Closed (readEntryText relative) := closed_one _ (closed_readRawEntry relative)
  have term := closed_origin closed_readText entry read.origin
  unfold single
  exact closed_validated rfl _ (closed_defaulted false term read.fallback) _

theorem closed_many (read : LeafRead) : Closed (many read) := by
  have entry (relative : String) : Closed (readEntryTexts relative) := closed_one _ (closed_readRawEntry relative)
  have term := closed_origin closed_readTexts entry read.origin
  unfold many
  exact closed_validated rfl _ (closed_defaulted true term read.fallback) _

/-! ## Construction -/

theorem closed_converted (descriptor : Descriptor) {term : Term} (closed : Closed term) :
    Closed (converted descriptor term) := by
  unfold converted
  split
  · exact closed
  · split
    · exact closed_one _ closed
    · exact closed

theorem closed_picked (isCollection : Bool) (slot : Nat) : Closed (picked isCollection (slotName slot)) :=
  closed_two _ (closed_variable (balanced_slotName marks slot)) (closed_variable (runs_ofList [] rfl))

theorem closed_mapped {read body : Term} (outer : Closed read) (inner : Closed body) (absentIfEmpty : Bool) :
    Closed (mapped read body absentIfEmpty) := by
  have each : Closed (.comprehension body "value" read) :=
    closed_comprehension inner (runs_ofList [] rfl) outer
  cases absentIfEmpty with
  | false => exact each
  | true => exact closed_orAbsent each

theorem closed_broadcast {reads : List (String × Term)} {body : Term}
    (each : ∀ name read, (name, read) ∈ reads → Balanced quotes name ∧ Closed read) (inner : Closed body)
    (absentIfEmpty : Bool) : Closed (broadcast reads body absentIfEmpty) := by
  have words : ∀ name ∈ reads.map Prod.fst, Balanced quotes name := by
    intro name member
    obtain ⟨⟨name, read⟩, listed, rfl⟩ := List.mem_map.mp member
    exact (each name read listed).1
  have arguments : ∀ term ∈ reads.map Prod.snd, Closed term := by
    intro term member
    obtain ⟨⟨name, read⟩, listed, rfl⟩ := List.mem_map.mp member
    exact (each name read listed).2
  have lists : Closed (.positions ((reads.map Prod.fst).map .variable)) := by
    refine closed_positions fun term member => ?_
    obtain ⟨name, listed, rfl⟩ := List.mem_map.mp member
    exact closed_variable (words name listed)
  have loop : Closed (.comprehension body "index" (.positions ((reads.map Prod.fst).map .variable))) :=
    closed_comprehension inner (runs_ofList [] rfl) lists
  refine closed_apply words (fun level => ?_) arguments
  cases absentIfEmpty with
  | false => exact loop level
  | true => exact (loop level).fixed [] rfl

/-! ## Plans -/

theorem closed_term {plan : Plan} (worded : plan.Worded) : Closed (term plan) := by
  induction worded with
  | absent => exact closed_absent
  | single read => exact closed_single read
  | many read => exact closed_many read
  | filled read => exact closed_orAbsent (closed_many read)
  | element => exact closed_variable (runs_ofList [] rfl)
  | elementList => exact closed_singleton (closed_variable (runs_ofList [] rfl))
  | picked slot => exact closed_picked false slot
  | pickedList slot => exact closed_picked true slot
  | converted descriptor _ ih => exact closed_converted descriptor ih
  | record _ ih =>
    refine closed_dictionary fun key value member => ?_
    rw [entryTerms_eq] at member
    obtain ⟨⟨_, inner⟩, listed, same⟩ := List.mem_map.mp member
    cases same
    exact ih key inner listed
  | typed words _ ih =>
    refine closed_construct (balanced_word marks words.py) (closed_dictionary fun key value member => ?_)
    rw [memberTerms_eq] at member
    obtain ⟨⟨property, inner⟩, listed, same⟩ := List.mem_map.mp member
    cases same
    exact ih property inner listed
  | serialized _ ih => exact closed_one _ ih
  | mapped read absentIfEmpty _ _ ih => exact closed_mapped (closed_many read) ih absentIfEmpty
  | broadcast reads absentIfEmpty _ _ ih =>
    refine closed_broadcast (fun name read member => ?_) ih absentIfEmpty
    obtain ⟨⟨slot, read⟩, _, same⟩ := List.mem_map.mp member
    cases same
    exact ⟨balanced_slotName marks slot, closed_many read⟩
  | eachEntry root _ ih =>
    exact closed_comprehension ih (runs_ofList [] rfl) (closed_two _ closed_row (closed_literal root))

end ProfileConnector.Python
