import ProfileConnector.Proofs.Row.Aligned
import ProfileConnector.Proofs.Row.Texts

/-!
Broadcasts of a single list. Its texts are taken one by one, each as a single text and as a list of texts, and
this is what the reads at the positions of a broadcast yield. It rests on texts that are never empty, wherever
they come from.
-/

namespace ProfileConnector.Row

open Outcome

/-- The list of texts of a raw value, or of a default if there is one and the value has none. -/
def given (raw : Value) : Option Value → Value
  | none => Helper.textList (texts raw)
  | some fallback => orDefaultTexts (Helper.textList (texts raw)) fallback

theorem given_eq (raw : Value) (fallback : Option Value) :
    ∃ ts : List Text, given raw fallback = Helper.textList ts ∧ ∀ t ∈ ts, t ≠ [] := by
  cases fallback with
  | none => exact ⟨texts raw, rfl, fun t listed => texts_filled listed⟩
  | some fallback =>
    refine ⟨_, orDefaultTexts_textList (texts raw) (texts fallback) fallback rfl, fun t listed => ?_⟩
    split at listed <;> exact texts_filled listed

def singleton (value : Value) : Value := .list (if value.truthy then [value] else [])

theorem singleton_text {t : Text} (filled : t ≠ []) : singleton (.text t) = .list [.text t] := by
  have truthy : (Value.text t).truthy = true := by simpa [Value.truthy] using filled
  rw [singleton, if_pos truthy]

theorem map_aligned (ts : List Text) : (List.range ts.length).map (aligned ts) = ts :=
  List.ext_getElem (by simp) fun position _ inside => by
    rw [List.getElem_map, List.getElem_range, aligned_inside inside]

/--
What is made of the texts one by one, each read as a text and as a list, is made of the reads at the positions of
a broadcast, with the same failures.
-/
theorem broadcast_alone {α : Type} (raw : Value) (fallback : Option Value) (f : Value → Value → Except RowFault α) :
    ∃ items length, given raw fallback = .list items ∧ broadcastLength [given raw fallback] = .ok length ∧
      items.mapM (fun item => f item (singleton item)) = (List.range length).mapM (fun position : Nat => do
        f (← picked (given raw fallback) (.int position)) (← pickedList (given raw fallback) (.int position))) := by
  obtain ⟨ts, whole, filled⟩ := given_eq raw fallback
  have length : broadcastLength [given raw fallback] = .ok ts.length := by
    rw [whole]
    exact (broadcastLength_textList [ts]).trans (by simp [longest])
  refine ⟨ts.map .text, ts.length, whole, length, ?_⟩
  calc (ts.map Value.text).mapM (fun item => f item (singleton item))
    _ = ts.mapM fun t => f (.text t) (.list [.text t]) := by
        rw [List.mapM_map]
        exact mapM_congr fun t listed => by rw [Function.comp_apply, singleton_text (filled t listed)]
    _ = (List.range ts.length).mapM fun position =>
          f (.text (aligned ts position)) (.list [.text (aligned ts position)]) := by
        conv_lhs => rw [← map_aligned ts, List.mapM_map]
        rfl
    _ = _ := mapM_congr fun position listed => by
        rw [whole, picked_textList, pickedList_textList (List.mem_range.mp listed)]
        rfl

end ProfileConnector.Row
