import Mathlib.Algebra.Order.Group.Nat
import ProfileConnector.Proofs.Script.Evaluation
import ProfileConnector.Proofs.Script.Writing
import ProfileConnector.Proofs.Text.Apart
import ProfileConnector.Script.Literal

/-!
Written literals and what they denote. Every literal of a script can be read, and denotes the text that
the evaluation of terms takes it for. This is the text it was made from just when all characters lie in
the basic plane: a character above is written as the escapes of its two halves, and these are read as two
code points.
-/

namespace ProfileConnector

open Text (literalText quote)

/-! ## Hexadecimal digits -/

namespace Text

theorem hexValue?_hexDigit : ∀ d < 16, hexValue? (hexDigit d) = some d := by decide

theorem length_hexDigits (width n : Nat) : (hexDigits width n).length = width := by
  induction width generalizing n with
  | zero => rfl
  | succ width ih => rw [hexDigits, List.length_append, ih, List.length_singleton]

theorem hexNumber?_hexDigits (width n : Nat) : hexNumber? (hexDigits width n) = some (n % 16 ^ width) := by
  induction width generalizing n with
  | zero => simp [hexDigits, hexNumber?, Nat.mod_one]
  | succ width ih =>
    have digit := hexValue?_hexDigit (n % 16) (Nat.mod_lt _ (by decide))
    have front := ih (n / 16)
    rw [hexNumber?] at front
    have value : n / 16 % 16 ^ width * 16 + n % 16 = n % 16 ^ (width + 1) := by
      rw [Nat.pow_succ', Nat.mod_mul, Nat.mul_comm, Nat.add_comm]
    rw [hexDigits, hexNumber?, List.foldl_append, front]
    simp [digit, value]

theorem unitPoint_scalar (c : Char) : unitPoint c.toNat = .scalar c := by
  have valid := c.valid
  simp only [UInt32.isValidChar, Nat.isValidChar] at valid
  have outside : ¬ (0xD800 ≤ c.toNat ∧ c.toNat < 0xE000) := by
    change ¬ (0xD800 ≤ c.val.toNat ∧ c.val.toNat < 0xE000)
    omega
  rw [unitPoint, if_neg outside, Char.ofNat_toNat]

theorem unitPoint_half (unit : Fin 2048) : unitPoint (0xD800 + unit.val) = .half unit := by
  have inside : 0xD800 ≤ 0xD800 + unit.val ∧ 0xD800 + unit.val < 0xE000 := by omega
  rw [unitPoint, if_pos inside]
  refine congrArg CodePoint.half (Fin.ext ?_)
  change (0xD800 + unit.val - 0xD800) % 2048 = unit.val
  omega

theorem ofSplit_eq_ofChars_iff (cs ds : List Char) :
    ofSplit cs = ofChars ds ↔ cs = ds ∧ ∀ c ∈ cs, c.toNat < 0x10000 := by
  constructor
  · intro same
    induction cs generalizing ds with
    | nil => cases ds <;> simp_all [ofSplit, ofChars]
    | cons c cs ih =>
      cases ds with
      | nil =>
        rw [ofSplit] at same
        split at same <;> cases same
      | cons d ds =>
        rw [ofSplit, ofChars, List.map_cons] at same
        split at same
        · rename_i basic
          obtain ⟨first, others⟩ := List.cons.inj same
          obtain ⟨rfl, small⟩ := ih ds others
          exact ⟨by rw [CodePoint.scalar.inj first], List.forall_mem_cons.mpr ⟨basic, small⟩⟩
        · cases (List.cons.inj same).1
  · rintro ⟨rfl, small⟩
    exact ofSplit_eq_ofChars cs small

end Text

/-! ## Reading what was written -/

namespace Literal

open Text

theorem inside_escape {cs : List Char} {t : Text} {width : Nat} (found : escape? cs = some (t, width)) :
    inside 0 ('\\' :: cs) = (inside width cs).map (t ++ ·) := by
  rw [inside, if_neg (by decide), if_pos rfl, found]
  cases h : inside width cs <;> simp [h]

theorem hexPoint?_hexDigits {unit : Nat} (small : unit < 0x10000) (rest : List Char) :
    hexPoint? 4 (hexDigits 4 unit ++ rest) = some (unitPoint unit) := by
  have four := length_hexDigits 4 unit
  have taken : (hexDigits 4 unit ++ rest).take 4 = hexDigits 4 unit := by simp [four]
  have value : hexNumber? (hexDigits 4 unit) = some unit := by
    rw [hexNumber?_hexDigits, show unit % 16 ^ 4 = unit from Nat.mod_eq_of_lt small]
  simp only [hexPoint?, taken, four, if_true, value, Option.bind_eq_bind, Option.bind_some]
  exact if_pos (by omega)

theorem inside_unitEscape {unit : Nat} (small : unit < 0x10000) (rest : List Char) :
    inside 0 (unitEscape unit ++ rest) = (inside 0 rest).map (unitPoint unit :: ·) := by
  have escape : escape? ('u' :: (hexDigits 4 unit ++ rest)) = some ([unitPoint unit], 5) := by
    have unmarked : marks.lookup 'u' = none := by decide
    have wide : widths.lookup 'u' = some 4 := by decide
    simp only [escape?, unmarked, wide, hexPoint?_hexDigits small rest, Option.map_some]
  have behind : inside 5 ('u' :: (hexDigits 4 unit ++ rest)) = inside 0 rest := by
    obtain ⟨a, b, c, d, digits⟩ : ∃ a b c d, hexDigits 4 unit = [a, b, c, d] := ⟨_, _, _, _, rfl⟩
    simp [digits, inside]
  rw [unitEscape, List.cons_append, List.cons_append, inside_escape escape, behind]
  rfl

theorem inside_mark {c : Char} {t : Text} (marked : marks.lookup c = some t) (rest : List Char) :
    inside 0 ('\\' :: c :: rest) = (inside 0 rest).map (t ++ ·) := by
  have escape : escape? (c :: rest) = some (t, 1) := by rw [escape?, marked]
  rw [inside_escape escape]
  rfl

theorem inside_escapeChar (c : Char) (rest : List Char) :
    inside 0 (escapeChar c ++ rest) = (inside 0 rest).map (ofSplit [c] ++ ·) := by
  unfold escapeChar
  iterate 7
    split
    · subst_vars
      exact inside_mark rfl rest
  split
  · rename_i quote backslash _ _ _ _ _ printable
    have allowed : isForbidden c = false := by
      have apart (d : Char) (control : d.toNat < 0x20) : c ≠ d := by
        rintro rfl
        omega
      simp [isForbidden, apart '\n' (by decide), apart '\r' (by decide), apart '\x00' (by decide)]
    have basic : c.toNat < 0x10000 := by omega
    simp [inside, quote, backslash, allowed, ofSplit, basic]
  split
  · rename_i basic
    rw [inside_unitEscape basic, unitPoint_scalar]
    simp [ofSplit, basic]
  · rename_i high
    rw [List.append_assoc, inside_unitEscape (by omega), inside_unitEscape (by omega), unitPoint_half, unitPoint_half]
    cases inside 0 rest <;> simp [ofSplit, high]

theorem inside_chars (cs : List Char) : inside 0 ((ofChars cs).flatMap escapePoint ++ ['"']) = some (ofSplit cs) := by
  induction cs with
  | nil => rfl
  | cons c cs ih =>
    rw [ofChars, List.map_cons, List.flatMap_cons, List.append_assoc, ← ofChars]
    rw [show escapePoint (.scalar c) = escapeChar c from rfl, inside_escapeChar, ih, Option.map_some]
    simp only [ofSplit]
    split <;> rfl

/-- A literal denotes what the evaluation of terms takes it for. -/
theorem denoted_quote (s : String) : denoted (quote s).toList = some (literalText s) := by
  rw [quote, quoteText, String.toList_ofList, quoteChars, denoted]
  exact inside_chars s.toList

theorem literalText_eq_iff (s t : String) : literalText s = ofString t ↔ s = t ∧ InBasicPlane s := by
  rw [literalText, ofString, ofSplit_eq_ofChars_iff, String.toList_inj]
  rfl

theorem denoted_quote_iff (s : String) : denoted (quote s).toList = some (ofString s) ↔ InBasicPlane s := by
  rw [denoted_quote, Option.some_inj, literalText_eq_iff]
  exact and_iff_right rfl

end Literal

/-! ## Places of literals -/

namespace Layout

theorem exists_intercalate (sep : String) (front back : List String) :
    ∃ before after, ∀ part, sep.intercalate (front ++ part :: back) = before ++ part ++ after := by
  by_cases first : front = []
  · refine ⟨"", sep.intercalate ("" :: back), fun part => ?_⟩
    rw [first, List.nil_append, intercalate_cons, String.empty_append]
  · refine ⟨sep.intercalate front ++ sep, sep.intercalate ("" :: back), fun part => ?_⟩
    rw [String.intercalate_append_of_ne_nil first (List.cons_ne_nil _ _), intercalate_cons]
    simp [String.append_assoc]

end Layout

namespace Python

open Term

def checks (type : PropertyType) (limits : Constraints) : List (String × Constant) :=
  if type.isNumeric then numberLimits limits else textLimits limits

def checker (type : PropertyType) : Helper :=
  if type.isNumeric then (if type.isCollection then .validateNumberCollection else .validateNumber)
  else if type.isCollection then .validateStringCollection
  else .validateString

theorem validated_of_checks {type : PropertyType} {limits : Constraints} (varied : type ≠ .boolean)
    (some : checks type limits ≠ []) (name : String) (value : Term) :
    validated type name value limits = .call (checker type) [.literal name, value] (checks type limits) := by
  unfold checks checker at *
  by_cases numeric : type.isNumeric = true
  · rw [if_pos numeric] at some
    simp [validated, varied, numeric, some]
  · rw [if_neg numeric] at some
    simp [validated, varied, numeric, some]

/-- The places where a script has a text of the schema as a literal. -/
inductive Place where
  | path (source : Source)
  | header (source : Source) (front back : List String)
  | relative
  | root (body : Term)
  | fallback (isCollection : Bool) (read : Term)
  | checked (type : PropertyType) (value : Term) (limits : Constraints)
  | unmapped
  | key (front : List (String × Term)) (value : Term) (back : List (String × Term))

namespace Place

def term (s : String) : Place → Term
  | .path source => sourceLiteral { source with jsonPath := some s }
  | .header source front back => sourceLiteral { source with headers := front ++ s :: back }
  | .relative => readRawEntry s
  | .root body => eachEntry s body
  | .fallback isCollection read => withDefault isCollection read s
  | .checked type value limits => validated type s value limits
  | .unmapped => missingMapping s
  | .key front value back => .dictionary (front ++ (s, value) :: back)

/--
The text is written there. A blank path is not, headers are only without a path, and the name of a
property is only needed if there is something to check.
-/
def Takes (s : String) : Place → Prop
  | .path source => ({ source with jsonPath := some s } : Source).hasPath = true
  | .header source _ _ => source.hasPath = false
  | .checked type _ limits => type ≠ .boolean ∧ checks type limits ≠ []
  | _ => True

theorem exists_write_call (helper : Helper) (front back : List Term) (options : List (String × Constant)) (level : Nat) :
    ∃ before after, ∀ s, Term.write level (.call helper (front ++ .literal s :: back) options) =
      before ++ quote s ++ after := by
  obtain ⟨before, after, around⟩ :=
    Layout.exists_intercalate ", " (front.map (write level)) (back.map (write level) ++ writeOptions options)
  refine ⟨helper.name ++ "(" ++ before, after ++ ")", fun s => ?_⟩
  rw [write_call, writeAll_eq, List.map_append, List.map_cons, write_literal, Layout.items, List.append_assoc,
    List.cons_append, around]
  simp [String.append_assoc, toString]

def memberLine (level : Nat) (entry : String × String) : String :=
  indent (level + 1) ++ quote entry.1 ++ ": " ++ entry.2

theorem writeDictionary_eq (level : Nat) {entries : List (String × String)} (some : entries ≠ []) :
    writeDictionary level entries =
      "\x7b\n" ++ ",\n".intercalate (entries.map (memberLine level)) ++ ",\n" ++ indent level ++ "\x7d" := by
  have filled : entries.isEmpty = false := by simpa using some
  have lines : memberLine level = fun entry => indent (level + 1) ++ quote entry.1 ++ ": " ++ entry.2 := rfl
  rw [writeDictionary, filled, lines]
  simp [toString, String.append_assoc]

theorem exists_write_dictionary (front : List (String × Term)) (value : Term) (back : List (String × Term))
    (level : Nat) : ∃ before after, ∀ s, Term.write level (.dictionary (front ++ (s, value) :: back)) =
      before ++ quote s ++ after := by
  let written (entries : List (String × Term)) : List String :=
    (writeEntries (level + 1) entries).map (memberLine level)
  obtain ⟨before, after, around⟩ := Layout.exists_intercalate ",\n" (written front) (written back)
  refine ⟨"\x7b\n" ++ before ++ indent (level + 1),
    ": " ++ value.write (level + 1) ++ after ++ ",\n" ++ indent level ++ "\x7d", fun s => ?_⟩
  have lines := around (memberLine level (s, value.write (level + 1)))
  simp only [written, writeEntries_eq] at lines
  rw [write_dictionary, writeEntries_eq, writeDictionary_eq level (by simp), List.map_append, List.map_cons,
    List.map_append, List.map_cons, lines, memberLine]
  simp [String.append_assoc]

/-- The text stands in its place as a literal, the rest of the script does not depend on it. -/
theorem exists_write (place : Place) (level : Nat) :
    ∃ before after, ∀ s, place.Takes s → (place.term s).write level = before ++ quote s ++ after := by
  cases place with
  | path source =>
    refine ⟨"", "", fun s taken => ?_⟩
    have literal : sourceLiteral { source with jsonPath := some s } = .literal s := by
      simp only [Takes] at taken
      simp [sourceLiteral, taken]
    rw [term, literal, write_literal, String.empty_append, String.append_empty]
  | header source front back =>
    obtain ⟨before, after, around⟩ := Layout.exists_intercalate ", " (front.map quote) (back.map quote)
    refine ⟨"[" ++ before, after ++ "]", fun s taken => ?_⟩
    have literals : sourceLiteral { source with headers := front ++ s :: back } = .literals (front ++ s :: back) := by
      simp only [Takes, Source.hasPath] at taken
      simp [sourceLiteral, Source.hasPath, taken]
    rw [term, literals, write_literals, List.map_append, List.map_cons, Layout.list, Layout.items, around]
    simp [String.append_assoc]
  | relative =>
    obtain ⟨before, after, around⟩ := exists_write_call .readEntryValue [.variable "entry"] [] [] level
    exact ⟨before, after, fun s _ => around s⟩
  | root body =>
    obtain ⟨before, after, around⟩ := exists_write_call .readArrayEntries [.variable "row"] [] [] level
    refine ⟨"[" ++ write (level + 2) body ++ " for entry in " ++ before, after ++ "]", fun s _ => ?_⟩
    have entries := around s
    rw [List.singleton_append] at entries
    rw [term, eachEntry, write_comprehension, entries]
    simp [String.append_assoc, toString]
  | fallback isCollection read =>
    obtain ⟨before, after, around⟩ :=
      exists_write_call (if isCollection then .applyDefaultCollection else .applyDefaultString) [read] [] [] level
    exact ⟨before, after, fun s _ => around s⟩
  | checked type value limits =>
    obtain ⟨before, after, around⟩ := exists_write_call (checker type) [] [value] (checks type limits) level
    refine ⟨before, after, fun s ⟨varied, limited⟩ => ?_⟩
    rw [term, validated_of_checks varied limited]
    exact around s
  | unmapped =>
    obtain ⟨before, after, around⟩ := exists_write_call .raiseMissingMapping [] [] [] level
    exact ⟨before, after, fun s _ => around s⟩
  | key front value back =>
    obtain ⟨before, after, around⟩ := exists_write_dictionary front value back level
    exact ⟨before, after, fun s _ => around s⟩

end Place

/-! ## Reads through literals -/

theorem atColumns_single {value : Value} (filled : value.isBlank = false) (key : Text) (headers : List Text) :
    Row.atColumns (.record [(key, value)]) headers = if key ∈ headers then value else .null := by
  induction headers with
  | nil => rfl
  | cons header headers ih =>
    unfold Row.atColumns at ih ⊢
    by_cases same : key = header
    · subst same
      simp [Value.member?, KeyedList.get?, filled]
    · have other : (Value.record [(key, value)]).member? header = none := by
        simp [Value.member?, KeyedList.get?, same]
      rw [List.filterMap_cons, other, ih]
      simp [same]

theorem get?_row (row : Value) : KeyedList.get? "row" [("row", row)] = some row := rfl

theorem run_columns_iff {source : Source} (pathless : source.hasPath = false) :
    (∀ row, (readRaw (sourceLiteral source)).run row = Row.sourced row source) ↔
      ∀ header ∈ source.headers, Text.InBasicPlane header := by
  have run (row : Value) : (readRaw (sourceLiteral source)).run row =
      .ok (Row.atColumns row (source.headers.map literalText)) := by
    rw [Term.run, evaluate_readRaw (get?_row row), pathless]
  have sourced (row : Value) : Row.sourced row source =
      .ok (Row.atColumns row (source.headers.map Text.ofString)) := by
    rw [Row.sourced, pathless]
  simp only [run, sourced, Except.ok.injEq]
  constructor
  · intro agree header member
    have filled : (Value.int 1).isBlank = false := rfl
    have found := agree (.record [(Text.ofString header, .int 1)])
    rw [atColumns_single filled, atColumns_single filled, if_pos (List.mem_map_of_mem member)] at found
    split at found
    · rename_i named
      obtain ⟨other, listed, same⟩ := List.mem_map.mp named
      obtain ⟨rfl, plain⟩ := (Literal.literalText_eq_iff other header).mp same
      exact plain
    · cases found
  · intro plain row
    rw [List.map_congr_left fun header member => literalText_eq (plain header member)]

theorem run_path {source : Source} {path : String} (pathful : source.hasPath = true)
    (given : source.jsonPath = some path) (plain : Text.InBasicPlane path) (row : Value) :
    (readRaw (sourceLiteral source)).run row = Row.atPath row (Text.ofString path) := by
  rw [Term.run, evaluate_readRaw (get?_row row), pathful, given]
  simp only [literalText_eq plain]

theorem evaluate_readRawEntry {relative : String} (plain : Text.InBasicPlane relative) (entry : Value) :
    evaluate [("entry", entry)] (readRawEntry relative) = Row.fromEntry entry (Text.ofString relative) := by
  rw [readRawEntry, evaluate_call, evaluateAll_eq]
  have bound : KeyedList.get? "entry" [("entry", entry)] = some entry := rfl
  have literal : evaluate [("entry", entry)] (.literal relative) = .ok (.text (Text.ofString relative)) := by
    rw [evaluate, literalText_eq plain]
  simp only [List.mapM_cons, List.mapM_nil, evaluate_variable bound, literal]
  cases blank : Text.ofString relative <;>
    simp [Helper.run, Helper.plain, Helper.two, Row.entryValue, Row.fromEntry, Row.asText, Value.truthy]

/--
Wherever the script has a text of the schema as a literal, the literal can be read, as it is in the evaluation
of terms; it denotes the text itself just when all characters lie in the basic plane. Just then columns are read
by their own headers; the value at a path and the value at a path from an entry on are then read too.
-/
theorem literal_denotes_iff (place : Place) (level : Nat) :
    (∃ before after, ∀ s, place.Takes s → (place.term s).write level = before ++ quote s ++ after ∧
      Literal.denoted (quote s).toList = some (literalText s) ∧
      (Literal.denoted (quote s).toList = some (Text.ofString s) ↔ Text.InBasicPlane s)) ∧
    (∀ source : Source, source.hasPath = false →
      ((∀ row, (readRaw (sourceLiteral source)).run row = Row.sourced row source) ↔
        ∀ header ∈ source.headers, Text.InBasicPlane header)) ∧
    (∀ (source : Source) (path : String) (row : Value), source.hasPath = true → source.jsonPath = some path →
      Text.InBasicPlane path →
        (readRaw (sourceLiteral source)).run row = Row.atPath row (Text.ofString path)) ∧
    ∀ (relative : String) (entry : Value), Text.InBasicPlane relative →
      evaluate [("entry", entry)] (readRawEntry relative) = Row.fromEntry entry (Text.ofString relative) := by
  obtain ⟨before, after, around⟩ := place.exists_write level
  refine ⟨⟨before, after, fun s taken => ?_⟩, fun _ => run_columns_iff,
    fun _ _ row pathful given plain => run_path pathful given plain row,
    fun _ entry plain => evaluate_readRawEntry plain entry⟩
  exact ⟨around s taken, Literal.denoted_quote s, Literal.denoted_quote_iff s⟩

theorem literal_denotes_iff_accent :
    (Place.header {} ["name"] []).Takes "é" ∧ Text.InBasicPlane "é" ∧ Text.InBasicPlane "$.é" ∧
    Literal.denoted (quote "é").toList = some (Text.ofString "é") ∧
    (readRaw (sourceLiteral { headers := ["name", "é"] })).run (.record [(Text.ofString "é", .int 1)]) =
      .ok (.int 1) ∧
    (readRaw (sourceLiteral { jsonPath := some "$.é" })).run (.record [(Text.ofString "é", .int 1)]) =
      Row.atPath (.record [(Text.ofString "é", .int 1)]) (Text.ofString "$.é") ∧
    evaluate [("entry", .record [(Text.ofString "é", .int 1)])] (readRawEntry "é") =
      Row.fromEntry (.record [(Text.ofString "é", .int 1)]) (Text.ofString "é") := by
  have taken : (Place.header {} ["name"] []).Takes "é" := rfl
  have name : Text.InBasicPlane "é" := by decide
  have path : Text.InBasicPlane "$.é" := by decide
  have headers : ∀ header ∈ ["name", "é"], Text.InBasicPlane header := by decide
  obtain ⟨⟨_, _, written⟩, columns, paths, entries⟩ := literal_denotes_iff (.header {} ["name"] []) 0
  refine ⟨taken, name, path, (written "é" taken).2.2.mpr name, ?_, paths _ "$.é" _ rfl rfl path, entries "é" _ name⟩
  exact (columns { headers := ["name", "é"] } rfl).mpr headers _

/-- A character above the basic plane becomes two code points, and its column is not found. -/
theorem literal_splits_character :
    Literal.denoted (quote "😀").toList = some [.half 61, .half 1536] ∧
    Literal.denoted (quote "😀").toList ≠ some (Text.ofString "😀") ∧
    (readRaw (sourceLiteral { headers := ["😀"] })).run (.record [(Text.ofString "😀", .int 1)]) = .ok .null ∧
    Row.sourced (.record [(Text.ofString "😀", .int 1)]) { headers := ["😀"] } = .ok (.int 1) := by
  refine ⟨by decide, by decide, ?_, rfl⟩
  rfl

end Python

end ProfileConnector
