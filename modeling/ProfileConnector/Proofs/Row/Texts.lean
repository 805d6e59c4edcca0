import ProfileConnector.Proofs.Number.Written
import ProfileConnector.Row.Read

/-!
Raw values read as texts. The text of a value is trimmed, and the texts of a value are never empty; a value
that is no list has a single text if there is no semicolon in it.
-/

namespace ProfileConnector

open Text

/-! ## Written numbers -/

namespace Text

def Solid (cs : List Char) : Prop := ∀ c ∈ cs, isBlank c = false

instance (cs : List Char) : Decidable (Solid cs) := List.decidableBAll (fun c : Char => isBlank c = false) cs

def Word (cs : List Char) : Prop := cs ≠ [] ∧ Solid cs

instance (cs : List Char) : Decidable (Word cs) := instDecidableAnd

end Text

theorem Numeral.word {cs : List Char} (numeral : Numeral cs) : Word cs :=
  ⟨numeral.filled, fun c member => not_isBlank (numeral.each c member)⟩

theorem Binary64.word_text (x : Binary64) : Word x.text.toList := by
  rw [text]
  rcases numeral_textWith "nan" "inf" x with numeral | word | word | word
  · exact numeral.word
  all_goals
    rw [word]
    decide

namespace Row

/-! ## Trimmed texts -/

theorem trim_of_word {s : String} (word : Word s.toList) : Text.trim (Text.ofString s) = Text.ofString s := by
  have points : ∀ point ∈ Text.ofString s, isBlankPoint point = false := fun point member => by
    obtain ⟨c, listed, rfl⟩ := List.mem_map.mp member
    exact word.2 c listed
  cases shape : Text.ofString s with
  | nil => rfl
  | cons point rest =>
    rw [shape] at points
    exact trimBy_eq_self (points point List.mem_cons_self) fun last ends => points last (List.mem_of_getLast? ends)

theorem trim_enclosed {s : String} {first last : Char} {inner : List Char}
    (shape : s.toList = first :: (inner ++ [last])) (opens : isBlank first = false) (closes : isBlank last = false) :
    Text.trim (Text.ofString s) = Text.ofString s := by
  have points : Text.ofString s = .scalar first :: (Text.ofChars inner ++ [.scalar last]) := by
    simp [Text.ofString, Text.ofChars, shape]
  rw [points]
  refine trimBy_eq_self opens fun point ends => ?_
  rw [← List.cons_append, List.getLast?_concat, Option.mem_some_iff] at ends
  exact ends ▸ closes

theorem toList_write_list (separators : Value.Separators) (items : List Value) : ∃ inner,
    (Value.write separators (.list items)).toList = '[' :: (inner ++ [']']) :=
  ⟨_, by rw [Value.write, String.toList_append, String.toList_append]; rfl⟩

theorem toList_write_record (separators : Value.Separators) (members : List (Text × Value)) : ∃ inner,
    (Value.write separators (.record members)).toList = '\x7b' :: (inner ++ ['\x7d']) :=
  ⟨_, by rw [Value.write, String.toList_append, String.toList_append]; rfl⟩

theorem trim_plainText (value : Value) : Text.trim (plainText value) = plainText value := by
  cases value with
  | null => rfl
  | bool b => cases b <;> rfl
  | int n => exact trim_of_word (Numeral.int n).word
  | float x => exact trim_of_word x.word_text
  | text t => exact trimBy_trimBy isBlankPoint t
  | list items =>
    obtain ⟨inner, shape⟩ := toList_write_list Value.spaced items
    exact trim_enclosed shape (by decide) (by decide)
  | record members =>
    obtain ⟨inner, shape⟩ := toList_write_record Value.spaced members
    exact trim_enclosed shape (by decide) (by decide)

theorem text_of_plain {value : Value} (plain : ∀ items, value ≠ .list items) : text value = plainText value := by
  cases value with
  | list items => exact absurd rfl (plain items)
  | _ => rfl

theorem trim_text (value : Value) : Text.trim (text value) = text value := by
  by_cases listed : ∃ items, value = .list items
  · obtain ⟨items, rfl⟩ := listed
    rw [text]
    cases items.find? (!·.isBlank) with
    | none => rfl
    | some item => exact trim_plainText item
  · rw [text_of_plain (not_exists.mp listed)]
    exact trim_plainText value

theorem ofString_ne_nil {s : String} (filled : s.toList ≠ []) : Text.ofString s ≠ [] := by
  simpa [Text.ofString, Text.ofChars] using filled

theorem plainText_filled {value : Value} (filled : value.isBlank = false) : plainText value ≠ [] := by
  cases value with
  | null => cases filled
  | bool b => cases b <;> exact ofString_ne_nil (by decide)
  | int n => exact ofString_ne_nil (Numeral.int n).filled
  | float x => exact ofString_ne_nil x.word_text.1
  | text t =>
    change Text.trim t ≠ []
    simpa [Value.isBlank] using filled
  | list items =>
    obtain ⟨inner, shape⟩ := toList_write_list Value.spaced items
    exact ofString_ne_nil (by simp [shape])
  | record members =>
    obtain ⟨inner, shape⟩ := toList_write_record Value.spaced members
    exact ofString_ne_nil (by simp [shape])

/-! ## Parts between semicolons -/

theorem splitOn_cons {α : Type} [DecidableEq α] (mark x : α) (xs : List α) : ∃ first others,
    xs.splitOn mark = first :: others ∧
      (x :: xs).splitOn mark = if x = mark then [] :: first :: others else (x :: first) :: others := by
  obtain ⟨first, others, shape⟩ := List.exists_cons_of_ne_nil (List.splitOn_ne_nil mark xs)
  refine ⟨first, others, shape, ?_⟩
  rw [List.splitOn_cons_eq_if_modifyHead, shape]
  by_cases same : x = mark <;> simp [same]

theorem not_mem_of_mem_splitOn {α : Type} [DecidableEq α] {mark : α} {xs part : List α}
    (listed : part ∈ xs.splitOn mark) : mark ∉ part := by
  induction xs generalizing part with
  | nil =>
    rw [List.splitOn_nil, List.mem_singleton] at listed
    simp [listed]
  | cons x xs ih =>
    obtain ⟨first, others, shape, split⟩ := splitOn_cons mark x xs
    rw [shape] at ih
    rw [split] at listed
    by_cases same : x = mark
    · rw [if_pos same] at listed
      rcases List.mem_cons.mp listed with rfl | later
      · simp
      · exact ih later
    · rw [if_neg same] at listed
      rcases List.mem_cons.mp listed with rfl | later
      · simpa [Ne.symm same] using ih List.mem_cons_self
      · exact ih (List.mem_cons_of_mem _ later)

theorem forall_splitOn {α : Type} [DecidableEq α] {p : α → Prop} {mark : α} {xs : List α} :
    (∀ part ∈ xs.splitOn mark, ∀ x ∈ part, p x) ↔ ∀ x ∈ xs, x = mark ∨ p x := by
  induction xs with
  | nil => simp
  | cons x xs ih =>
    obtain ⟨first, others, shape, split⟩ := splitOn_cons mark x xs
    rw [shape] at ih
    rw [split, List.forall_mem_cons, ← ih]
    by_cases same : x = mark
    · simp [same]
    · simp [same, and_assoc]

/-! ## Texts of values -/

def unlessEmpty (t : Text) : List Text := if t.isEmpty then [] else [t]

theorem texts_of_plain {value : Value} (plain : ∀ items, value ≠ .list items) :
    texts value = (((text value).splitOn separator).map Text.trim).filter (!·.isEmpty) := by
  cases value with
  | list items => exact absurd rfl (plain items)
  | null => rfl
  | _ => rfl

theorem texts_filled {value : Value} {t : Text} (listed : t ∈ texts value) : t ≠ [] := by
  have filtered : ∀ ts : List Text, t ∈ ts.filter (!·.isEmpty) → t ≠ [] := fun ts member => by
    simpa using (List.mem_filter.mp member).2
  cases value with
  | null => cases listed
  | _ => exact filtered _ listed

theorem text_of_isBlank {value : Value} (blank : value.isBlank = true) : text value = [] := by
  cases value with
  | null => rfl
  | text t => exact List.isEmpty_iff.mp blank
  | _ => cases blank

theorem text_filled {value : Value} (some : texts value ≠ []) : text value ≠ [] := by
  by_cases listed : ∃ items, value = .list items
  · obtain ⟨items, rfl⟩ := listed
    obtain ⟨t, member⟩ := List.exists_mem_of_ne_nil _ some
    obtain ⟨inner, filled⟩ := List.mem_filter.mp member
    obtain ⟨item, within, rfl⟩ := List.mem_map.mp inner
    -- The text of a list is that of its first item that is not blank, and such an item has a text.
    have shown : (!item.isBlank) = true := by
      rw [Bool.not_eq_true', ← Bool.not_eq_true]
      intro blank
      simp [text_of_isBlank blank] at filled
    have reached : (items.find? (!·.isBlank)).isSome = true := List.find?_isSome.mpr ⟨item, within, shown⟩
    obtain ⟨first, found⟩ := Option.isSome_iff_exists.mp reached
    rw [text, found]
    exact plainText_filled (by simpa using List.find?_some found)
  · intro empty
    rw [texts_of_plain (not_exists.mp listed), empty] at some
    exact some rfl

theorem not_mem_of_mem_texts {value : Value} (plain : ∀ items, value ≠ .list items) {t : Text}
    (listed : t ∈ texts value) : separator ∉ t := by
  rw [texts_of_plain plain] at listed
  obtain ⟨part, within, rfl⟩ := List.mem_map.mp (List.mem_filter.mp listed).1
  exact fun inner => not_mem_of_mem_splitOn within ((trimBy_sublist _ _).subset inner)

theorem texts_of_not_mem {value : Value} (plain : ∀ items, value ≠ .list items) (none : separator ∉ text value) :
    texts value = unlessEmpty (text value) := by
  rw [texts_of_plain plain, List.splitOn_eq_singleton none, List.map_singleton, trim_text, unlessEmpty]
  cases text value <;> rfl

theorem texts_eq_nil_iff {value : Value} (plain : ∀ items, value ≠ .list items) :
    texts value = [] ↔ ∀ point ∈ text value, point = separator ∨ isBlankPoint point = true := by
  rw [texts_of_plain plain, List.filter_eq_nil_iff, List.forall_mem_map, ← forall_splitOn]
  simp [Text.trim, trimBy_eq_nil_iff]

end Row

end ProfileConnector
