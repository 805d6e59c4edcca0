import Mathlib.Data.List.Nodup
import ProfileConnector.Proofs.Row.Aligned
import ProfileConnector.Script.Evaluation
import ProfileConnector.Target.Python

/-!
What single terms evaluate to: calls, dictionaries and the reads of a row. A literal without
characters above `U+FFFF` denotes the string it was made from, so a read finds what the source names.
-/

namespace ProfileConnector

open Outcome
open Text (literalText)

/-! ## Characters up to `U+FFFF` -/

/-- All characters lie in the basic plane. -/
def Text.InBasicPlane (s : String) : Prop := ∀ c ∈ s.toList, c.toNat < 0x10000

instance (s : String) : Decidable (Text.InBasicPlane s) :=
  List.decidableBAll (fun c : Char => c.toNat < 0x10000) s.toList

structure Source.InBasicPlane (source : Source) : Prop where
  headers : ∀ header ∈ source.headers, Text.InBasicPlane header
  path : ∀ path, source.jsonPath = some path → Text.InBasicPlane path
  fallback : ∀ fallback, source.fallback = some fallback → Text.InBasicPlane fallback

structure FieldMapping.InBasicPlane (mapping : FieldMapping) : Prop where
  keys : ∀ key ∈ PathTree.segments mapping.path, Text.InBasicPlane key
  source : mapping.source.InBasicPlane

namespace Term

theorem literalText_eq {s : String} (plain : Text.InBasicPlane s) : literalText s = Text.ofString s :=
  Text.ofSplit_eq_ofChars s.toList plain

variable {bindings : Bindings}

theorem evaluateAll_eq (terms : List Term) : evaluateAll bindings terms = terms.mapM (evaluate bindings) := by
  induction terms with
  | nil => simp [evaluateAll]
  | cons term rest ih => rw [evaluateAll, ih, List.mapM_cons]

theorem evaluate_call (helper : Helper) (arguments : List Term) :
    evaluate bindings (.call helper arguments []) =
      evaluateAll bindings arguments >>= fun values => helper.run values [] := by
  simp [evaluate]

theorem evaluate_variable {name : String} {value : Value} (bound : KeyedList.get? name bindings = some value) :
    evaluate bindings (.variable name) = .ok value := by
  simp [evaluate, lookup, bound]

theorem evaluate_literals (texts : List String) :
    evaluate bindings (.literals texts) = .ok (Helper.textList (texts.map literalText)) := by
  simp [evaluate, Helper.textList]

theorem evaluate_comprehension {α : Type} {items : List α} {value result : α → Value} {body source : Term}
    {name : String} (yields : evaluate bindings source = .ok (.list (items.map value)))
    (each : ∀ item, evaluate ((name, value item) :: bindings) body = .ok (result item)) :
    evaluate bindings (.comprehension body name source) = .ok (.list (items.map result)) := by
  have every : (items.map value).mapM (fun item => evaluate ((name, item) :: bindings) body) =
      .ok (items.map result) := by
    rw [List.mapM_map]
    exact mapM_eq_map fun item _ => each item
  simp only [evaluate, yields, ok_bind, Value.elements?, every, pure_eq_ok]

theorem evaluate_dictionary {entries : List (String × Term)} {values : List Value}
    (plain : ∀ key ∈ KeyedList.keys entries, Text.InBasicPlane key) (distinct : (KeyedList.keys entries).Nodup)
    (each : entries.mapM (fun entry => evaluate bindings entry.2) = .ok values) :
    evaluate bindings (.dictionary entries) =
      .ok (.record (((KeyedList.keys entries).map Text.ofString).zip values)) := by
  have listed : evaluateEntries bindings entries =
      .ok (((KeyedList.keys entries).map Text.ofString).zip values) := by
    clear distinct
    induction entries generalizing values with
    | nil =>
      cases each
      rfl
    | cons entry rest ih =>
      obtain ⟨key, term⟩ := entry
      rw [List.mapM_cons, bind_eq_ok] at each
      obtain ⟨value, first, remaining⟩ := each
      obtain ⟨others, later, result⟩ := bind_eq_ok.mp remaining
      cases result
      have tail := ih (fun other member => plain other (List.mem_cons_of_mem key member)) later
      rw [evaluateEntries, first, tail, literalText_eq (plain key List.mem_cons_self)]
      rfl
  have short : (((KeyedList.keys entries).map Text.ofString).zip values).map Prod.fst =
      (KeyedList.keys entries).map Text.ofString := by
    refine List.map_fst_zip ?_
    have := (mapM_eq_ok.mp each).length_eq
    simp only [KeyedList.keys, List.length_map]
    omega
  -- Keys that are distinct stay distinct as texts, so no entry replaces another.
  have different : (KeyedList.keys (((KeyedList.keys entries).map Text.ofString).zip values)).Nodup := by
    rw [KeyedList.keys, short]
    exact List.Nodup.map Text.ofString_injective distinct
  rw [evaluate, listed, ok_bind, KeyedList.ofPairs_eq different]
  rfl

end Term

/-! ## Reads -/

namespace Python

open Term

variable {bindings : Bindings} {row : Value}

theorem many_read (source : Source) : many (({} : LeafLimits).read source) =
    match source.fallback with
    | some fallback => withDefault true (readTexts (sourceLiteral source)) fallback
    | none => readTexts (sourceLiteral source) :=
  rfl

theorem evaluate_readRaw (bound : KeyedList.get? "row" bindings = some row) (source : Source) :
    evaluate bindings (readRaw (sourceLiteral source)) =
      match source.hasPath, source.jsonPath with
      | true, some path => Row.atPath row (literalText path)
      | _, _ => .ok (Row.atColumns row (source.headers.map literalText)) := by
  have columns : evaluate bindings (readRaw (.literals source.headers)) =
      .ok (Row.atColumns row (source.headers.map literalText)) := by
    rw [readRaw, evaluate_call, evaluateAll_eq]
    simp [evaluate_variable bound, evaluate_literals, Helper.run, Helper.plain, Helper.two, Row.sourceValue_columns]
  unfold sourceLiteral
  cases source.hasPath with
  | false => exact columns
  | true =>
    cases source.jsonPath with
    | none => exact columns
    | some path =>
      simp only [readRaw]
      rw [evaluate_call, evaluateAll_eq]
      simp [evaluate, lookup, bound, Helper.run, Helper.plain, Helper.two, Row.sourceValue_path]

theorem evaluate_readRaw_plain {source : Source} (bound : KeyedList.get? "row" bindings = some row)
    (plain : source.InBasicPlane) :
    evaluate bindings (readRaw (sourceLiteral source)) = Row.sourced row source := by
  have headers : source.headers.map literalText = source.headers.map Text.ofString :=
    List.map_congr_left fun header member => literalText_eq (plain.headers header member)
  rw [evaluate_readRaw bound, Row.sourced, headers]
  cases source.hasPath with
  | false => rfl
  | true =>
    cases given : source.jsonPath with
    | none => rfl
    | some path => simp only [literalText_eq (plain.path path given)]

theorem evaluate_many {source : Source} (bound : KeyedList.get? "row" bindings = some row)
    (plain : source.InBasicPlane) :
    evaluate bindings (many (({} : LeafLimits).read source)) =
      (Row.sourceTexts row source).map Helper.textList := by
  have raw := evaluate_readRaw_plain bound plain
  have found : evaluate bindings (readTexts (sourceLiteral source)) =
      (Row.sourced row source).map fun value => Helper.textList (Row.texts value) := by
    rw [readTexts, evaluate_call, evaluateAll_eq]
    cases sourced : Row.sourced row source <;>
      simp [raw, sourced, Helper.run, Helper.plain, Helper.one, Except.map]
  rw [many_read, Row.sourceTexts]
  cases given : source.fallback with
  | none =>
    rw [found]
    cases Row.sourced row source <;> rfl
  | some fallback =>
    simp only [withDefault, if_true]
    rw [evaluate_call, evaluateAll_eq]
    cases sourced : Row.sourced row source with
    | error fault => simp [found, sourced, Except.map]
    | ok value =>
      simp [found, sourced, evaluate, literalText_eq (plain.fallback fallback given), Helper.run, Helper.plain,
        Helper.two, Row.orDefaultTexts_textList _ _ _ rfl]

end Python

end ProfileConnector
