import Mathlib.Data.List.Infix
import ProfileConnector.Declaration.Literal
import ProfileConnector.Proofs.Script.Literal

/-!
Reading literals in double quotes and in backticks. A quoted text is denoted by its literal. A text that stands
between backticks as it is denotes itself just if it is plain: what else could stand there is read as less, or
as another end of a line.
-/

namespace ProfileConnector

theorem Text.ofSplit_cons (c : Char) (cs : List Char) : ofSplit (c :: cs) = ofSplit [c] ++ ofSplit cs := by
  simp only [ofSplit]
  split <;> rfl

theorem Text.ofSplit_append (first second : List Char) :
    ofSplit (first ++ second) = ofSplit first ++ ofSplit second := by
  induction first with
  | nil => rfl
  | cons c first ih => rw [List.cons_append, ofSplit_cons, ih, ofSplit_cons c first, List.append_assoc]

theorem Text.length_le_ofSplit (cs : List Char) : cs.length ≤ (ofSplit cs).length := by
  induction cs with
  | nil => exact Nat.le_refl 0
  | cons c cs ih =>
    rw [ofSplit]
    split <;> simp only [List.length_cons] <;> omega

namespace TypeScript.Literal

open Text (literalText quote ofSplit)

/-! ## Readers -/

section

variable {close : Char} {unit : Char → List Char → Option (Text × Nat)}

theorem enclosed_skip (skipped rest : List Char) :
    enclosed close unit skipped.length (skipped ++ rest) = enclosed close unit 0 rest := by
  induction skipped with
  | nil => rfl
  | cons c skipped ih => rw [List.cons_append, List.length_cons, enclosed, ih]

theorem enclosed_drop {width : Nat} {cs : List Char} {text : Text} (read : enclosed close unit width cs = some text) :
    width < cs.length ∧ enclosed close unit 0 (cs.drop width) = some text := by
  induction cs generalizing width with
  | nil => cases width <;> cases read
  | cons c cs ih =>
    cases width with
    | zero => exact ⟨Nat.zero_lt_succ _, read⟩
    | succ width =>
      obtain ⟨within, later⟩ := ih read
      exact ⟨Nat.succ_lt_succ within, later⟩

theorem enclosed_unit {c : Char} (other : c ≠ close) {rest : List Char} {text : Text} {width : Nat}
    (own : unit c rest = some (text, width)) :
    enclosed close unit 0 (c :: rest) = (enclosed close unit width rest).map (text ++ ·) := by
  rw [enclosed, if_neg other, own]
  cases later : enclosed close unit width rest <;> simp [later]

theorem enclosed_cons {c : Char} (other : c ≠ close) {rest : List Char} {text : Text}
    (read : enclosed close unit 0 (c :: rest) = some text) : ∃ own width later, unit c rest = some (own, width) ∧
      width < rest.length ∧ enclosed close unit 0 (rest.drop width) = some later ∧ text = own ++ later := by
  rw [enclosed, if_neg other] at read
  simp only [Option.bind_eq_bind, Option.bind_eq_some_iff, Option.pure_def, Option.some.injEq] at read
  obtain ⟨⟨own, width⟩, first, later, others, rfl⟩ := read
  exact ⟨own, width, later, first, (enclosed_drop others).1, (enclosed_drop others).2, rfl⟩

end

/-! ## Double quotes -/

theorem quoted_escape {cs : List Char} {text : Text} {width : Nat} (found : escape? cs = some (text, width)) :
    enclosed '"' quotedUnit 0 ('\\' :: cs) = (enclosed '"' quotedUnit width cs).map (text ++ ·) :=
  enclosed_unit (by decide) (by rw [quotedUnit, if_pos rfl, found])

theorem quoted_mark {c : Char} {rest : List Char} {text : Text} (found : escape? (c :: rest) = some (text, 1)) :
    enclosed '"' quotedUnit 0 ('\\' :: c :: rest) = (enclosed '"' quotedUnit 0 rest).map (text ++ ·) :=
  quoted_escape found

theorem escape?_unit {unit : Nat} (small : unit < 0x10000) (rest : List Char) :
    escape? ('u' :: (Text.hexDigits 4 unit ++ rest)) = some ([Text.unitPoint unit], 5) := by
  have digit : ∀ n < 16, Text.hexDigit n ≠ '\x7b' := by decide
  have unbraced : (Text.hexDigits 4 unit ++ rest).head? ≠ some '\x7b' := fun same =>
    digit _ (Nat.mod_lt _ (by decide)) (Option.some.inj same)
  have unmarked : marks.lookup 'u' = none := by decide
  have digits := ProfileConnector.Literal.hexPoint?_hexDigits small rest
  simp only [escape?, unmarked, if_neg unbraced, digits, Option.map_some]
  rfl

theorem quoted_unitEscape {unit : Nat} (small : unit < 0x10000) (rest : List Char) :
    enclosed '"' quotedUnit 0 (Text.unitEscape unit ++ rest) =
      (enclosed '"' quotedUnit 0 rest).map ([Text.unitPoint unit] ++ ·) := by
  have five : ('u' :: Text.hexDigits 4 unit).length = 5 := congrArg (· + 1) (Text.length_hexDigits 4 unit)
  rw [Text.unitEscape, List.cons_append, List.cons_append, quoted_escape (escape?_unit small rest), ← five,
    ← List.cons_append, enclosed_skip]

theorem quoted_escapeChar (c : Char) (rest : List Char) :
    enclosed '"' quotedUnit 0 (Text.escapeChar c ++ rest) =
      (enclosed '"' quotedUnit 0 rest).map (ofSplit [c] ++ ·) := by
  unfold Text.escapeChar
  iterate 7
    split
    · subst_vars
      exact quoted_mark rfl
  split
  · rename_i quote backslash feed return_ _ _ _ printable
    exact enclosed_unit quote (by rw [quotedUnit, if_neg backslash, if_neg (by simp [feed, return_])])
  split
  · rename_i basic
    rw [quoted_unitEscape basic, Text.unitPoint_scalar]
    simp [ofSplit, basic]
  · rename_i high
    rw [List.append_assoc, quoted_unitEscape (by omega), quoted_unitEscape (by omega), Text.unitPoint_half,
      Text.unitPoint_half]
    cases enclosed '"' quotedUnit 0 rest <;> simp [ofSplit, high]

theorem denotedString_quote (s : String) : denotedString (quote s).toList = some (literalText s) := by
  rw [quote, Text.quoteText, String.toList_ofList, Text.quoteChars, denotedString, Text.ofString, literalText]
  induction s.toList with
  | nil => rfl
  | cons c cs ih =>
    rw [Text.ofChars, List.map_cons, List.flatMap_cons, List.append_assoc, ← Text.ofChars]
    rw [show Text.escapePoint (.scalar c) = Text.escapeChar c from rfl, quoted_escapeChar, ih, Option.map_some,
      ← Text.ofSplit_cons]

/-! ## Backticks -/

structure Plain (cs : List Char) : Prop where
  inside : '\x60' ∉ cs
  unescaped : '\\' ∉ cs
  unreturned : '\r' ∉ cs
  closed : ¬ ['$', '\x7b'] <:+: cs

/-- The character stands for itself in backticks, in front of the others. -/
structure PlainUnit (c : Char) (rest : List Char) : Prop where
  inside : c ≠ '\x60'
  unescaped : c ≠ '\\'
  unreturned : c ≠ '\r'
  closed : ¬ (c = '$' ∧ rest.head? = some '\x7b')

theorem plain_nil : Plain [] := ⟨List.not_mem_nil, List.not_mem_nil, List.not_mem_nil, by simp⟩

theorem plain_cons {c : Char} {cs : List Char} : Plain (c :: cs) ↔ PlainUnit c cs ∧ Plain cs := by
  have opens : ['$', '\x7b'] <+: c :: cs ↔ c = '$' ∧ cs.head? = some '\x7b' := by
    cases cs <;> simp [List.cons_prefix_cons, eq_comm]
  constructor
  · intro plain
    obtain ⟨backtick, inside⟩ := List.ne_and_not_mem_of_not_mem_cons plain.inside
    obtain ⟨backslash, unescaped⟩ := List.ne_and_not_mem_of_not_mem_cons plain.unescaped
    obtain ⟨return_, unreturned⟩ := List.ne_and_not_mem_of_not_mem_cons plain.unreturned
    obtain ⟨here, closed⟩ := not_or.mp (mt List.infix_cons_iff.mpr plain.closed)
    exact ⟨⟨backtick.symm, backslash.symm, return_.symm, mt opens.mpr here⟩, inside, unescaped, unreturned, closed⟩
  · rintro ⟨unit, plain⟩
    refine ⟨List.not_mem_cons_of_ne_of_not_mem unit.inside.symm plain.inside,
      List.not_mem_cons_of_ne_of_not_mem unit.unescaped.symm plain.unescaped,
      List.not_mem_cons_of_ne_of_not_mem unit.unreturned.symm plain.unreturned, ?_⟩
    exact fun within => (List.infix_cons_iff.mp within).elim (fun here => unit.closed (opens.mp here)) plain.closed

theorem plain_append {first second : List Char} (closed : first.getLast? ≠ some '$' ∨ second.head? ≠ some '\x7b') :
    Plain (first ++ second) ↔ Plain first ∧ Plain second := by
  induction first with
  | nil => exact (and_iff_right plain_nil).symm
  | cons c first ih =>
    cases first with
    | nil =>
      have alone : PlainUnit c second ↔ PlainUnit c [] := by
        refine ⟨fun unit => ⟨unit.inside, unit.unescaped, unit.unreturned, nofun⟩, fun unit => ?_⟩
        exact ⟨unit.inside, unit.unescaped, unit.unreturned, fun ⟨dollar, brace⟩ =>
          closed.elim (fun last => last (congrArg some dollar)) fun head => head brace⟩
      rw [List.singleton_append, plain_cons, plain_cons, alone, and_iff_left plain_nil]
    | cons d first =>
      have alone : PlainUnit c (d :: first ++ second) ↔ PlainUnit c (d :: first) :=
        ⟨fun unit => ⟨unit.inside, unit.unescaped, unit.unreturned, unit.closed⟩,
          fun unit => ⟨unit.inside, unit.unescaped, unit.unreturned, unit.closed⟩⟩
      rw [List.cons_append, plain_cons, ih (by simpa using closed), @plain_cons c, alone, and_assoc]

instance (cs : List Char) : Decidable (Plain cs) :=
  decidable_of_iff ('\x60' ∉ cs ∧ '\\' ∉ cs ∧ '\r' ∉ cs ∧ ¬ ['$', '\x7b'] <:+: cs)
    ⟨fun ⟨inside, unescaped, unreturned, closed⟩ => ⟨inside, unescaped, unreturned, closed⟩,
      fun plain => ⟨plain.inside, plain.unescaped, plain.unreturned, plain.closed⟩⟩

theorem plain_between {c : Char} (ordinary : c ∉ ['\x60', '\\', '\r', '$', '\x7b']) (first second : List Char) :
    Plain (first ++ c :: second) ↔ Plain first ∧ Plain second := by
  simp only [List.mem_cons, List.not_mem_nil, or_false, not_or] at ordinary
  obtain ⟨inside, unescaped, unreturned, dollar, brace⟩ := ordinary
  have unit : PlainUnit c second := ⟨inside, unescaped, unreturned, fun opens => dollar opens.1⟩
  rw [plain_append (.inr (by simpa using brace)), plain_cons, and_iff_right unit]

theorem PlainUnit.templateUnit {c : Char} {rest : List Char} (plain : PlainUnit c rest) (scope : List (String × Text)) :
    templateUnit scope c rest = some (ofSplit [c], 0) := by
  rw [Literal.templateUnit, if_neg plain.unescaped, if_neg plain.unreturned, if_neg plain.closed]

section

variable {scope : List (String × Text)}

theorem enclosed_substitution {name : String} {value : Text} (part : name.toList.all Identifier.isPart = true)
    (known : scope.lookup name = some value) (rest : List Char) :
    enclosed '\x60' (templateUnit scope) 0 ('$' :: '\x7b' :: (name.toList ++ '\x7d' :: rest)) =
      (enclosed '\x60' (templateUnit scope) 0 rest).map (value ++ ·) := by
  have whole : (name.toList ++ '\x7d' :: rest).takeWhile Identifier.isPart = name.toList := by
    rw [List.takeWhile_append_of_pos (List.all_eq_true.mp part)]
    simp [Identifier.isPart, Identifier.isAsciiWordChar, Text.isAsciiLetter, Text.isAsciiDigit]
  have unit : templateUnit scope '$' ('\x7b' :: (name.toList ++ '\x7d' :: rest)) =
      some (value, name.toList.length + 2) := by
    simp [templateUnit, substitution?, whole, known]
  rw [enclosed_unit (by decide) unit]
  have behind := @enclosed_skip '\x60' (templateUnit scope) ('\x7b' :: (name.toList ++ ['\x7d'])) rest
  simp only [List.length_cons, List.length_append, List.length_nil, List.cons_append, List.append_assoc,
    List.nil_append] at behind
  rw [← behind]

/-- What is plain denotes itself in front of anything that does not make its last character open a substitution. -/
theorem enclosed_plain {cs rest : List Char} (plain : Plain cs)
    (closed : cs.getLast? ≠ some '$' ∨ rest.head? ≠ some '\x7b') :
    enclosed '\x60' (templateUnit scope) 0 (cs ++ rest) =
      (enclosed '\x60' (templateUnit scope) 0 rest).map (ofSplit cs ++ ·) := by
  induction cs with
  | nil => simp [ofSplit]
  | cons c cs ih =>
    obtain ⟨unit, plain⟩ := plain_cons.mp plain
    have alone : PlainUnit c (cs ++ rest) := by
      refine ⟨unit.inside, unit.unescaped, unit.unreturned, fun opens => ?_⟩
      cases cs with
      | nil => exact closed.elim (fun last => last (by simp [opens.1])) fun head => head opens.2
      | cons d cs => exact unit.closed opens
    have later : cs.getLast? ≠ some '$' ∨ rest.head? ≠ some '\x7b' := by
      cases cs with
      | nil => exact .inl (by simp)
      | cons d cs => simpa using closed
    rw [List.cons_append, enclosed_unit unit.inside (alone.templateUnit scope), ih plain later, Option.map_map,
      Text.ofSplit_cons c cs]
    simp [Function.comp_def]

theorem length_pointUnits (value : Nat) : (pointUnits value).length ≤ 2 := by
  unfold pointUnits ofSplit
  split
  · exact Nat.le_succ 1
  · split <;> simp [ofSplit]

theorem length_bracedPoint? {cs : List Char} {text : Text} {width : Nat} (read : bracedPoint? cs = some (text, width)) :
    text.length ≤ 2 := by
  simp only [bracedPoint?] at read
  split at read
  · cases read
  · obtain ⟨value, _, read⟩ := Option.bind_eq_some_iff.mp read
    split at read <;> cases read
    exact length_pointUnits value

theorem length_escape? {cs : List Char} {text : Text} {width : Nat} (read : escape? cs = some (text, width))
    (within : width ≤ cs.length) : text.length ≤ (ofSplit (cs.take width)).length := by
  -- No escape stands for more code units than it is wide.
  have enough (short : text.length ≤ width) : text.length ≤ (ofSplit (cs.take width)).length := by
    have taken := Text.length_le_ofSplit (cs.take width)
    rw [List.length_take, Nat.min_eq_left within] at taken
    exact Nat.le_trans short taken
  cases cs with
  | nil => cases read
  | cons c rest =>
    simp only [escape?] at read
    split at read
    · cases read
      exact enough (Nat.le_refl 1)
    split at read
    · obtain ⟨_, _, same⟩ := Option.map_eq_some_iff.mp read
      cases same
      exact enough (Nat.le_add_left 1 2)
    split at read
    · split at read
      · obtain ⟨⟨point, digits⟩, braced, same⟩ := Option.map_eq_some_iff.mp read
        cases same
        exact enough (Nat.le_trans (length_bracedPoint? braced) (Nat.le_add_left 2 digits))
      · obtain ⟨_, _, same⟩ := Option.map_eq_some_iff.mp read
        cases same
        exact enough (Nat.le_add_left 1 4)
    split at read
    · split at read
      · cases read
        exact enough (Nat.le_refl 1)
      · cases read
    split at read
    · cases read
      exact enough (Nat.zero_le _)
    split at read
    · cases read
      exact enough (Nat.zero_le 1)
    · cases read
      exact Nat.le_refl _

theorem templateUnit_cases (blank : ∀ entry ∈ scope, entry.2 = []) {c : Char}
    {rest : List Char} {text : Text} {width : Nat} (read : templateUnit scope c rest = some (text, width))
    (within : width ≤ rest.length) :
    (c ≠ '\\' ∧ c ≠ '\r' ∧ ¬ (c = '$' ∧ rest.head? = some '\x7b') ∧ text = ofSplit [c] ∧ width = 0) ∨
      (c = '\r' ∧ text = [.scalar '\n']) ∨ text.length ≤ (ofSplit (rest.take width)).length := by
  simp only [templateUnit] at read
  split at read
  · exact .inr (.inr (length_escape? read within))
  split at read
  · cases read
    exact .inr (.inl ⟨‹_›, rfl⟩)
  split at read
  · simp only [substitution?, Option.map_eq_some_iff] at read
    obtain ⟨⟨value, _⟩, found, same⟩ := read
    split at found
    · obtain ⟨_, known, paired⟩ := Option.map_eq_some_iff.mp found
      cases paired
      cases same
      obtain ⟨_, _, rfl, _⟩ := List.lookup_eq_some_iff.mp known
      have empty : value = [] := blank _ (List.mem_append_right _ List.mem_cons_self)
      exact .inr (.inr (by simp [empty]))
    · cases found
  · cases read
    exact .inl ⟨‹_›, ‹_›, ‹_›, rfl, rfl⟩

/--
Where substitutions give nothing, what stands between backticks is read as no more than itself, and as
itself only if it is plain.
-/
theorem plain_of_enclosed (blank : ∀ entry ∈ scope, entry.2 = []) {cs : List Char} {text : Text}
    (read : enclosed '\x60' (templateUnit scope) 0 (cs ++ ['\x60']) = some text) :
    text.length ≤ (ofSplit cs).length ∧ (text = ofSplit cs → Plain cs) := by
  -- A unit may take characters behind its own, so the induction is on the length of what is left.
  induction size : cs.length using Nat.strong_induction_on generalizing cs text with
  | h n ih =>
    subst size
    cases cs with
    | nil =>
      cases read
      exact ⟨Nat.le_refl 0, fun _ => plain_nil⟩
    | cons c cs =>
      have other : c ≠ '\x60' := by
        rintro rfl
        simp [enclosed] at read
      obtain ⟨own, width, later, unit, within, others, rfl⟩ := enclosed_cons other read
      rw [List.append_eq] at unit within others
      have inside : width ≤ cs.length := by simpa [Nat.lt_succ_iff] using within
      rw [List.drop_append_of_le_length inside] at others
      obtain ⟨bound, behind⟩ := ih _ (by rw [List.length_drop, List.length_cons]; omega) others rfl
      have parts : (ofSplit (cs.take width)).length + (ofSplit (cs.drop width)).length = (ofSplit cs).length := by
        rw [← List.length_append, ← Text.ofSplit_append, List.take_append_drop]
      have first := Text.length_le_ofSplit [c]
      rw [Text.ofSplit_cons, List.length_append, List.length_append]
      rcases templateUnit_cases blank unit (Nat.le_of_lt within) with
        ⟨unescaped, unreturned, closed, rfl, rfl⟩ | ⟨rfl, rfl⟩ | short
      · refine ⟨by simpa using bound, fun same => plain_cons.mpr ⟨⟨other, unescaped, unreturned, ?_⟩, ?_⟩⟩
        · cases cs with
          | nil => simp
          | cons d cs => exact closed
        · exact behind (List.append_cancel_left same)
      · -- A carriage return is read as a line feed, and so not as itself.
        refine ⟨by simp [ofSplit]; omega, fun same => ?_⟩
        cases List.head_eq_of_cons_eq same
      · rw [List.take_append_of_le_length inside] at short
        simp only [List.length_singleton] at first
        refine ⟨by omega, fun same => ?_⟩
        have lengths := congrArg List.length same
        simp only [List.length_append] at lengths
        omega

theorem Plain.enclosed {cs : List Char} (plain : Plain cs) :
    enclosed '\x60' (templateUnit scope) 0 (cs ++ ['\x60']) = some (ofSplit cs) := by
  rw [enclosed_plain plain (.inr (by simp))]
  simp [Literal.enclosed]

end

end TypeScript.Literal

end ProfileConnector
