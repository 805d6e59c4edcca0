import ProfileConnector.Proofs.Text.Inner
import ProfileConnector.Proofs.Text.Trimmed
import ProfileConnector.Text.Quoted

/-!
Scanning source text. A scan skips string literals, in which a backslash escapes the next character,
and keeps the brackets that are open in the code between them. Text is balanced when scanning it
leaves the scan where it was; text that is put together from balanced parts, with brackets around them,
is balanced.
-/

namespace ProfileConnector

/-- Where a scan stands: in code or in a literal, with the brackets that are still to come. -/
inductive Scan where
  | code (closers : List Char)
  | literal (closers : List Char) (quote : Char)
  | escaped (closers : List Char) (quote : Char)
  deriving DecidableEq, Repr

namespace Scan

def closer? : Char → Option Char
  | '(' => some ')'
  | '[' => some ']'
  | '{' => some '}'
  | _ => none

def isCloser (c : Char) : Bool := c == ')' || c == ']' || c == '}'

/-- The brackets to come after a character of code; a closing one must be the one that is due. -/
def bracketed (c : Char) (closers : List Char) : Option (List Char) :=
  match closer? c with
  | some closer => some (closer :: closers)
  | none =>
    if isCloser c then
      match closers with
      | [] => none
      | due :: rest => if due = c then some rest else none
    else some closers

def step (quotes : List Char) (c : Char) : Scan → Option Scan
  | .code closers => if c ∈ quotes then some (.literal closers c) else (bracketed c closers).map .code
  | .literal closers quote =>
    if c = '\\' then some (.escaped closers quote)
    else if c = quote then some (.code closers)
    else some (.literal closers quote)
  | .escaped closers quote => some (.literal closers quote)

def run (quotes : List Char) : List Char → Scan → Option Scan
  | [], scan => some scan
  | c :: rest, scan => (step quotes c scan).bind (run quotes rest)

/-- Scanning the text as code leads from some brackets to others, and to no open literal. -/
def Runs (quotes before : List Char) (text : String) (after : List Char) : Prop :=
  run quotes text.toList (.code before) = some (.code after)

/-- The text ends outside any literal with all brackets matched. -/
def Balanced (quotes : List Char) (text : String) : Prop := Runs quotes [] text []

instance (quotes : List Char) (text : String) : Decidable (Balanced quotes text) := inferInstanceAs (Decidable (_ = _))

example : Balanced ['"'] "f([\")\\\"\"])" ∧ ¬ Balanced ['"'] "f(\")\\\"])" ∧ ¬ Balanced ['"'] "([)]" := by decide

variable {quotes : List Char}

theorem run_append (first second : List Char) (scan : Scan) :
    run quotes (first ++ second) scan = (run quotes first scan).bind (run quotes second) := by
  induction first generalizing scan with
  | nil => rfl
  | cons c rest ih =>
    rw [List.cons_append, run, run]
    cases step quotes c scan with
    | none => rfl
    | some next => exact ih next

/-! ## Brackets further out -/

def within (outer : List Char) : Scan → Scan
  | .code closers => .code (closers ++ outer)
  | .literal closers quote => .literal (closers ++ outer) quote
  | .escaped closers quote => .escaped (closers ++ outer) quote

theorem bracketed_append {c : Char} {closers next : List Char} (due : bracketed c closers = some next)
    (outer : List Char) : bracketed c (closers ++ outer) = some (next ++ outer) := by
  unfold bracketed at *
  split at due
  · cases due
    rfl
  · split at due
    · rename_i closes
      cases closers with
      | nil => cases due
      | cons first rest =>
        simp only [List.cons_append, closes, if_true, Option.ite_none_right_eq_some, Option.some.injEq] at due ⊢
        exact ⟨due.1, due.2 ▸ rfl⟩
    · rename_i plain
      cases due
      rw [if_neg plain]

theorem step_within (outer : List Char) {c : Char} {scan next : Scan} (stepped : step quotes c scan = some next) :
    step quotes c (scan.within outer) = some (next.within outer) := by
  cases scan with
  | code closers =>
    rw [step] at stepped
    rw [within, step]
    split at stepped
    · rename_i opens
      cases stepped
      rw [if_pos opens, within]
    · rename_i plain
      obtain ⟨found, due, same⟩ := Option.map_eq_some_iff.mp stepped
      cases same
      rw [if_neg plain, bracketed_append due, Option.map_some, within]
  | literal closers quote =>
    rw [step] at stepped
    rw [within, step]
    split at stepped
    · rename_i backslash
      cases stepped
      rw [if_pos backslash, within]
    · rename_i plain
      rw [if_neg plain]
      split at stepped
      · rename_i closes
        cases stepped
        rw [if_pos closes, within]
      · rename_i other
        cases stepped
        rw [if_neg other, within]
  | escaped closers quote =>
    cases stepped
    rfl

theorem run_within (outer : List Char) {text : List Char} {scan final : Scan}
    (scanned : run quotes text scan = some final) :
    run quotes text (scan.within outer) = some (final.within outer) := by
  induction text generalizing scan with
  | nil =>
    cases scanned
    rfl
  | cons c rest ih =>
    obtain ⟨next, stepped, remaining⟩ := Option.bind_eq_some_iff.mp scanned
    rw [run, step_within outer stepped]
    exact ih remaining

theorem Runs.within {before after : List Char} {text : String} (runs : Runs quotes before text after)
    (outer : List Char) : Runs quotes (before ++ outer) text (after ++ outer) :=
  run_within outer runs

/-! ## Parts -/

theorem runs_ofList {before : List Char} (after : List Char) {cs : List Char}
    (scanned : run quotes cs (.code before) = some (.code after)) : Runs quotes before (String.ofList cs) after := by
  rw [Runs, String.toList_ofList, scanned]

theorem balanced_empty : Balanced quotes "" := by
  rw [Balanced, Runs, String.toList_empty]
  rfl

theorem Runs.append {before between after : List Char} {first second : String}
    (runs : Runs quotes before first between) (others : Runs quotes between second after) :
    Runs quotes before (first ++ second) after := by
  rw [Runs, String.toList_append, run_append, runs, Option.bind_some, others]

theorem Runs.part {before after : List Char} {first second : String} (runs : Runs quotes before first after)
    (inner : Balanced quotes second) : Runs quotes before (first ++ second) after :=
  runs.append (inner.within after)

theorem Runs.fixed {before between : List Char} {first : String} (runs : Runs quotes before first between)
    (after : List Char) {cs : List Char} (scanned : run quotes cs (.code between) = some (.code after)) :
    Runs quotes before (first ++ String.ofList cs) after :=
  runs.append (runs_ofList after scanned)

theorem Balanced.fixed {before : List Char} {first : String} (balanced : Balanced quotes first) (after : List Char)
    {cs : List Char} (scanned : run quotes cs (.code before) = some (.code after)) :
    Runs quotes before (first ++ String.ofList cs) after :=
  Runs.fixed (balanced.within before) after scanned

theorem Balanced.append {first second : String} (balanced : Balanced quotes first) (other : Balanced quotes second) :
    Balanced quotes (first ++ second) :=
  Runs.part balanced other

theorem balanced_intercalate {sep : String} {parts : List String} (between : Balanced quotes sep)
    (each : ∀ part ∈ parts, Balanced quotes part) : Balanced quotes (sep.intercalate parts) := by
  induction parts with
  | nil => exact balanced_empty
  | cons first rest ih =>
    have own := each first List.mem_cons_self
    have others := ih fun part member => each part (List.mem_cons_of_mem _ member)
    cases rest with
    | nil => rwa [String.intercalate_singleton]
    | cons next further =>
      rw [String.intercalate_cons_cons]
      exact (own.append between).append others

/-! ## Plain text -/

def isPlain (quotes : List Char) (c : Char) : Bool := !quotes.contains c && (closer? c).isNone && !isCloser c

theorem run_plain {text : List Char} (plain : ∀ c ∈ text, isPlain quotes c = true) (closers : List Char) :
    run quotes text (.code closers) = some (.code closers) := by
  induction text with
  | nil => rfl
  | cons c rest ih =>
    have own := plain c List.mem_cons_self
    simp only [isPlain, Bool.and_eq_true, Bool.not_eq_true', List.contains_eq_mem, decide_eq_false_iff_not,
      Option.isNone_iff_eq_none] at own
    obtain ⟨⟨unquoted, unopened⟩, unclosed⟩ := own
    have stays : step quotes c (.code closers) = some (.code closers) := by
      simp [step, bracketed, unquoted, unopened, unclosed]
    rw [run, stays]
    exact ih fun d member => plain d (List.mem_cons_of_mem c member)

theorem balanced_plain {text : String} (plain : ∀ c ∈ text.toList, isPlain quotes c = true) : Balanced quotes text :=
  run_plain plain []

/-! ## Literals -/

def Inside (quotes : List Char) (quote : Char) (text : List Char) : Prop :=
  ∀ closers, run quotes text (.literal closers quote) = some (.literal closers quote)

theorem inside_of_inner {quote : Char} {text : List Char} (inner : Text.Inner quote text) :
    Inside quotes quote text := by
  intro closers
  induction inner with
  | nil => rfl
  | plain other unescaped _ ih => rw [run, step, if_neg unescaped, if_neg other, Option.bind_some, ih]
  | escape _ ih => rw [run, step, if_pos rfl, Option.bind_some, run, step, Option.bind_some, ih]

theorem balanced_quoted {quote : Char} {text : List Char} (known : quote ∈ quotes) (other : quote ≠ '\\')
    (inner : Text.Inner quote text) : Balanced quotes (String.ofList (quote :: (text ++ [quote]))) := by
  refine runs_ofList [] ?_
  have opened : step quotes quote (.code []) = some (.literal [] quote) := if_pos known
  have closed : step quotes quote (.literal [] quote) = some (.code []) := by simp [step, other]
  rw [run, opened, Option.bind_some, run_append, inside_of_inner inner, Option.bind_some, run, closed, Option.bind_some, run]

theorem balanced_quote (known : '"' ∈ quotes) (s : String) : Balanced quotes (Text.quote s) :=
  balanced_quoted known (by decide) (.flatMap .escapePoint _)

theorem balanced_spell (double : '"' ∈ quotes) (single : '\'' ∈ quotes) (s : String) :
    Balanced quotes (Text.spell s) := by
  have known : Text.spellingQuote s.toList = '"' ∨ Text.spellingQuote s.toList = '\'' := by
    rw [Text.spellingQuote]
    split
    · exact .inl rfl
    · exact .inr rfl
  rw [Text.spell]
  refine balanced_quoted ?_ ?_ (.flatMap (.spellChar known) _)
  all_goals rcases known with same | same <;> rw [same]
  · exact double
  · exact single
  · decide
  · decide

/-! ## Words and numbers -/

def Marks (quotes : List Char) : Prop := ∀ quote ∈ quotes, quote = '"' ∨ quote = '\''

def special : List Char := ['"', '\'', '(', '[', '{', ')', ']', '}']

theorem Marks.isPlain (marks : Marks quotes) {c : Char} (other : c ∉ special) : isPlain quotes c = true := by
  simp only [special, List.mem_cons, List.not_mem_nil, or_false, not_or] at other
  obtain ⟨double, single, round, square, curly, round', square', curly'⟩ := other
  have unquoted : c ∉ quotes := fun known => (marks c known).elim double single
  have unopened : closer? c = none := by
    unfold closer?
    split <;> simp_all
  simp [Scan.isPlain, unquoted, unopened, isCloser, round', square', curly']

theorem Marks.balanced (marks : Marks quotes) {text : String}
    (plain : text.toList.all (!special.contains ·) = true) : Balanced quotes text := by
  refine balanced_plain fun c member => marks.isPlain ?_
  simpa using List.all_eq_true.mp plain c member

theorem balanced_word (marks : Marks quotes) {text : String} (word : text.toList.all Identifier.isPart = true) :
    Balanced quotes text := by
  have apart : special.all (!Identifier.isPart ·) = true := by decide
  refine balanced_plain fun c member => marks.isPlain fun listed => ?_
  simpa [List.all_eq_true.mp word c member] using List.all_eq_true.mp apart c listed

theorem balanced_nat (marks : Marks quotes) (n : Nat) : Balanced quotes (toString n) :=
  balanced_word marks (List.all_eq_true.mpr fun _ member => Text.isPart_of_mem_repr member)

theorem balanced_int (marks : Marks quotes) (n : Int) : Balanced quotes (toString n) := by
  have shown : toString n = if 0 ≤ n then toString n.toNat else "-" ++ toString (-n).toNat := Int.repr_eq_if
  rw [shown]
  split
  · exact balanced_nat marks _
  · exact (marks.balanced (by decide)).append (balanced_nat marks _)

end Scan

namespace Layout

open Scan

variable {quotes : List Char}

theorem balanced_indent {unit : String} (plain : Balanced quotes unit) (level : Nat) :
    Balanced quotes (indent unit level) := by
  rw [indent]
  induction level with
  | zero => exact balanced_empty
  | succ level ih =>
    rw [List.replicate_succ, String.join_cons]
    exact plain.append ih

theorem balanced_items (marks : Marks quotes) {parts : List String} (each : ∀ part ∈ parts, Balanced quotes part) :
    Balanced quotes (items parts) :=
  balanced_intercalate (marks.balanced (by decide)) each

theorem balanced_list (marks : Marks quotes) {parts : List String} (each : ∀ part ∈ parts, Balanced quotes part) :
    Balanced quotes (list parts) := by
  have unquoted {c : Char} (other : c ≠ '"' ∧ c ≠ '\'') : c ∉ quotes := fun known =>
    (marks c known).elim other.1 other.2
  have opened : Runs quotes [] "[" [']'] :=
    @runs_ofList quotes [] [']'] ['['] (by simp [run, step, bracketed, closer?, unquoted])
  have closed : Runs quotes [']'] "]" [] :=
    @runs_ofList quotes [']'] [] [']'] (by simp [run, step, bracketed, closer?, isCloser, unquoted])
  exact (opened.part (balanced_items marks each)).append closed

/-- Scanning lines one after another leads from some brackets to others. -/
inductive Chain (quotes : List Char) : List Char → List String → List Char → Prop
  | nil {closers : List Char} : Chain quotes closers [] closers
  | cons {before between after : List Char} {line : String} {rest : List String} (runs : Runs quotes before line between)
      (others : Chain quotes between rest after) : Chain quotes before (line :: rest) after

theorem Chain.append {before between after : List Char} {first second : List String}
    (chain : Chain quotes before first between) (others : Chain quotes between second after) :
    Chain quotes before (first ++ second) after := by
  induction chain with
  | nil => exact others
  | cons runs _ ih => exact .cons runs (ih others)

theorem chain_balanced {parts : List String} (each : ∀ part ∈ parts, Balanced quotes part) (closers : List Char) :
    Chain quotes closers parts closers := by
  induction parts with
  | nil => exact .nil
  | cons first rest ih =>
    exact .cons ((each first List.mem_cons_self).within closers)
      (ih fun part member => each part (List.mem_cons_of_mem first member))

theorem Chain.runs (marks : Marks quotes) {before after : List Char} {parts : List String}
    (chain : Chain quotes before parts after) : Runs quotes before (lines parts) after := by
  have newline : Balanced quotes "\n" := marks.balanced (by decide)
  induction chain with
  | @nil closers => exact balanced_empty.within closers
  | @cons before between after line rest runs others ih =>
    cases others with
    | nil => rwa [lines, String.intercalate_singleton]
    | cons next further =>
      rw [lines, String.intercalate_cons_cons]
      exact (Runs.part runs newline).append ih

theorem balanced_slotName (marks : Marks quotes) (slot : Nat) : Balanced quotes (slotName slot) :=
  (marks.balanced (by decide)).append (balanced_nat marks slot)

end Layout

end ProfileConnector
