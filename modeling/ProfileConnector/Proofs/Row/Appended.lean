import ProfileConnector.Proofs.Path.Renormalized
import ProfileConnector.Proofs.Row.Texts

/-!
Entries appended to an array. What is read from an array through a wildcard goes on with the new entry, except
that an array of a single entry is read as this entry: its text is cut at semicolons, and its items are taken
one by one, as long as it is alone.
-/

namespace ProfileConnector.Row

open Outcome ProfileConnector.Path

theorem prefix_unlessEmpty {ts : List Text} {t : Text} : ts <+: unlessEmpty t ↔ ts = [] ∨ ts = [t] ∧ t ≠ [] := by
  cases t with
  | nil => simp [unlessEmpty]
  | cons point rest => simp [unlessEmpty, List.prefix_cons_iff]

theorem texts_list (items : List Value) : texts (.list items) = items.flatMap fun item => unlessEmpty (text item) := by
  rw [texts]
  induction items with
  | nil => rfl
  | cons item items ih =>
    rw [List.map_cons, List.filter_cons, ih, List.flatMap_cons, unlessEmpty]
    cases text item <;> rfl

theorem texts_ofMatches {values : List Value} (several : values.length ≠ 1) :
    texts (ofMatches values) = values.flatMap fun value => unlessEmpty (text value) := by
  match values with
  | [] => rfl
  | [value] => exact absurd rfl several
  | first :: second :: rest => exact texts_list _

theorem texts_prefix {values : List Value} (several : values.length ≠ 1) (value : Value) :
    texts (ofMatches values) <+: texts (ofMatches (values ++ [value])) := by
  match values with
  | [] => exact List.nil_prefix
  | [only] => exact absurd rfl several
  | first :: second :: rest =>
    rw [texts_ofMatches several, texts_ofMatches (by simp), List.flatMap_append]
    exact List.prefix_append _ _

theorem texts_prefix_iff (only value : Value) : texts only <+: texts (ofMatches [only, value]) ↔
    texts only = [] ∨ texts only = [text only] ∨ texts only = [text only, text value] := by
  rw [texts_ofMatches (by simp), List.flatMap_cons, List.flatMap_singleton]
  constructor
  · intro front
    by_cases none : texts only = []
    · exact .inl none
    · -- A value with texts has a text of its own, which comes first once the value is not alone any more.
      have filled : unlessEmpty (text only) = [text only] := by simp [unlessEmpty, text_filled none]
      rw [filled, List.singleton_append, List.prefix_cons_iff] at front
      obtain ⟨rest, whole, behind⟩ := front.resolve_left none
      rcases prefix_unlessEmpty.mp behind with rfl | ⟨rfl, _⟩
      · exact .inr (.inl whole)
      · exact .inr (.inr whole)
  · have own {t : Text} (listed : t ∈ texts only) : unlessEmpty t = [t] := by simp [unlessEmpty, texts_filled listed]
    rintro (none | single | both)
    · rw [none]
      exact List.nil_prefix
    · rw [single, own (single ▸ List.mem_singleton_self _)]
      exact List.prefix_append _ _
    · rw [both, own (both ▸ List.mem_cons_self), own (both ▸ List.mem_cons_of_mem _ (List.mem_singleton_self _))]
      exact List.prefix_refl _

theorem texts_prefix_plain_iff {only : Value} (plain : ∀ items, only ≠ .list items) (value : Value) :
    texts only <+: texts (ofMatches [only, value]) ↔
      separator ∉ text only ∨ ∀ point ∈ text only, point = separator ∨ Text.isBlankPoint point = true := by
  rw [texts_prefix_iff, ← texts_eq_nil_iff plain]
  by_cases cut : separator ∈ text only
  · have parted : text only ∉ texts only := fun listed => not_mem_of_mem_texts plain listed cut
    constructor
    · rintro (none | single | both)
      · exact .inr none
      · exact absurd (single ▸ List.mem_singleton_self _) parted
      · exact absurd (both ▸ List.mem_cons_self) parted
    · exact fun none => .inl (none.resolve_left (not_not_intro cut))
  · refine ⟨fun _ => .inl cut, fun _ => ?_⟩
    rw [texts_of_not_mem plain cut, unlessEmpty]
    cases text only with
    | nil => exact .inl rfl
    | cons point rest => exact .inr (.inl rfl)

theorem atPath_entries {path : Text} {front : List Step} (read : steps path = .ok (front ++ [.wildcard]))
    {document : Value} {items : List Value} (array : reached front document = [.list items]) :
    atPath document path = .ok (ofMatches items) := by
  rw [atPath, matched_of_steps read (by simp), reached_entries array]
  rfl

/--
Where a path leads to an array and then to all of its entries, the texts that are read go on with those of an
appended entry, unless the array has had a single entry. The texts of a single entry stay just if there are none,
or if they are the text of the entry, alone or before the text of the new one; for an entry that is no list this
means that no semicolon cuts it, or that there is nothing but semicolons and blanks in it.
-/
theorem texts_appended {path : Text} {front : List Step} {document : Value} {items : List Value}
    (read : steps path = .ok (front ++ [.wildcard])) (array : reached front document = [.list items]) (value : Value) :
    ∃ before after, atPath document path = .ok before ∧
      atPath (updated front (fun _ => .list (items ++ [value])) document) path = .ok after ∧
      (items.length ≠ 1 → texts before <+: texts after) ∧
      ∀ entry, items = [entry] →
        (texts before <+: texts after ↔
          texts entry = [] ∨ texts entry = [text entry] ∨ texts entry = [text entry, text value]) ∧
        ((∀ inner, entry ≠ .list inner) → (texts before <+: texts after ↔
          separator ∉ text entry ∨ ∀ point ∈ text entry, point = separator ∨ Text.isBlankPoint point = true)) := by
  have longer : reached front (updated front (fun _ => .list (items ++ [value])) document) =
      [.list (items ++ [value])] := by
    rw [reached_updated, array, List.map_singleton]
  refine ⟨_, _, atPath_entries read array, atPath_entries read longer, fun several => texts_prefix several value, ?_⟩
  rintro entry rfl
  exact ⟨texts_prefix_iff entry value, fun plain => texts_prefix_plain_iff plain value⟩

def labelled (labels : List String) : Value := .record [(Text.ofString "tags", .list (labels.map Value.ofString))]

theorem reached_labelled (labels : List String) :
    reached [.member (Text.ofString "tags")] (labelled labels) = [.list (labels.map Value.ofString)] := rfl

theorem steps_labels : steps (Text.ofString "$.tags[*]") = .ok ([.member (Text.ofString "tags")] ++ [.wildcard]) := by
  decide +kernel

theorem texts_appended_labels :
    steps (Text.ofString "$.tags[*]") = .ok ([.member (Text.ofString "tags")] ++ [.wildcard]) ∧
      reached [.member (Text.ofString "tags")] (labelled ["a;b", "c"]) = [.list (["a;b", "c"].map Value.ofString)] ∧
      ∃ before after, atPath (labelled ["a;b", "c"]) (Text.ofString "$.tags[*]") = .ok before ∧
        atPath (labelled ["a;b", "c", "d"]) (Text.ofString "$.tags[*]") = .ok after ∧ texts before <+: texts after := by
  have array := reached_labelled ["a;b", "c"]
  obtain ⟨before, after, first, second, several, _⟩ := texts_appended steps_labels array (Value.ofString "d")
  exact ⟨steps_labels, array, before, after, first, second, several (by decide)⟩

/-- The text of a single entry is cut at its semicolon, and is not cut any more once there is another entry. -/
theorem texts_cut_alone :
    (atPath (labelled ["a;b"]) (Text.ofString "$.tags[*]")).map texts = .ok [Text.ofString "a", Text.ofString "b"] ∧
      (atPath (labelled ["a;b", "c"]) (Text.ofString "$.tags[*]")).map texts =
        .ok [Text.ofString "a;b", Text.ofString "c"] ∧
      ¬ ∀ path front document items value, .wildcard ∉ front → steps path = .ok (front ++ [.wildcard]) →
        reached front document = [.list items] → ∀ before after, atPath document path = .ok before →
        atPath (updated front (fun _ => .list (items ++ [value])) document) path = .ok after →
        texts before <+: texts after := by
  have first := atPath_entries steps_labels (reached_labelled ["a;b"])
  have second := atPath_entries steps_labels (reached_labelled ["a;b", "c"])
  have alone : texts (ofMatches (["a;b"].map Value.ofString)) = [Text.ofString "a", Text.ofString "b"] := by decide
  have together : texts (ofMatches (["a;b", "c"].map Value.ofString)) = [Text.ofString "a;b", Text.ofString "c"] := by
    decide
  refine ⟨?_, ?_, fun always => ?_⟩
  · rw [first, map_ok, alone]
  · rw [second, map_ok, together]
  · have front := always _ _ _ _ (Value.ofString "c") (by simp) steps_labels (reached_labelled ["a;b"]) _ _ first second
    rw [alone, together] at front
    revert front
    decide

end ProfileConnector.Row
