import ProfileConnector.Proofs.Outcome
import ProfileConnector.Script.Call

/-!
What rows contribute to correlated lists, said on texts: the texts that a source yields, and the text
that a list has at a position, where a single text stands at every position and nothing stands behind
the end of a longer list. The row helpers do just this to lists of texts.
-/

namespace ProfileConnector.Row

open Outcome

/-- The raw value that a source addresses: what its path reaches, or the first filled one of its columns. -/
def sourced (row : Value) (source : Source) : Except RowFault Value :=
  match source.hasPath, source.jsonPath with
  | true, some path => atPath row (Text.ofString path)
  | _, _ => .ok (atColumns row (source.headers.map Text.ofString))

/-- The texts of a source, or those of its default if there are none. -/
def sourceTexts (row : Value) (source : Source) : Except RowFault (List Text) :=
  (sourced row source).map fun raw =>
    match source.fallback with
    | some fallback => if (texts raw).isEmpty then texts (.text (Text.ofString fallback)) else texts raw
    | none => texts raw

/-- The text that a list has at a position of a broadcast. -/
def aligned (ts : List Text) (position : Nat) : Text :=
  if ts.length = 1 then ts.headD [] else (ts[position]?).getD []

def longest (lists : List (List Text)) : Nat := (lists.map List.length).foldl max 0

theorem headers_textList (headers : List Text) : Row.headers (Helper.textList headers) = .ok headers := by
  simp only [Row.headers, Helper.textList, Value.elements?]
  rw [List.mapM_map, show List.mapM _ headers = .ok (headers.map some) from mapM_eq_map fun _ _ => rfl]
  simp

theorem sourceValue_path (row : Value) (path : Text) : sourceValue row (.text path) = atPath row path := by
  cases row <;> rfl

theorem sourceValue_columns (row : Value) (headers : List Text) :
    sourceValue row (Helper.textList headers) = .ok (atColumns row headers) := by
  cases row with
  | record members =>
    simp only [sourceValue, Helper.textList]
    rw [← Helper.textList, headers_textList]
    rfl
  | _ =>
    simp [sourceValue, Helper.textList, atColumns, Value.member?]

theorem orDefaultTexts_textList (ts fallback : List Text) (value : Value) (found : texts value = fallback) :
    orDefaultTexts (Helper.textList ts) value = Helper.textList (if ts.isEmpty then fallback else ts) := by
  cases ts <;> simp [orDefaultTexts, Helper.textList, Value.truthy, found]

theorem sizeOf_textList (ts : List Text) : sizeOf (Helper.textList ts) = .ok ts.length := by
  simp [sizeOf, Value.size?, Value.elements?, Helper.textList]

theorem elementAt_textList {ts : List Text} {position : Nat} (inside : position < ts.length) :
    elementAt (Helper.textList ts) position = .ok (.text ts[position]) := by
  have natural : ¬ (position : Int) < 0 := by omega
  have found : (ts.map Value.text)[position]? = some (.text ts[position]) := by simp [inside]
  simp [elementAt, Helper.textList, Value.elements?, natural, found]

theorem orEmpty_text (t : Text) : orEmpty (.text t) = .text t := by
  cases t <;> simp [orEmpty, Value.truthy, emptyText]

theorem picked?_textList (ts : List Text) (position : Nat) : picked? (Helper.textList ts) (.int position) =
    .ok (if ts.length = 1 ∨ position < ts.length then some (.text (aligned ts position)) else none) := by
  rcases Nat.eq_zero_or_pos ts.length with empty | filled
  · rw [List.length_eq_zero_iff] at empty
    subst empty
    simp [picked?, Helper.textList, Value.truthy]
  · have truthy : (Helper.textList ts).truthy = true := by
      simpa [Helper.textList, Value.truthy] using List.length_pos_iff.mp filled
    by_cases single : ts.length = 1
    · have first : elementAt (Helper.textList ts) 0 = .ok (.text ts[0]) := elementAt_textList filled
      simp [picked?, truthy, sizeOf_textList, single, first, orEmpty_text, aligned, List.headD_eq_head?_getD,
        List.head?_eq_getElem?]
    · by_cases inside : position < ts.length
      · simp [picked?, truthy, sizeOf_textList, single, indexOf, inside, elementAt_textList inside, orEmpty_text, aligned]
      · simp [picked?, truthy, sizeOf_textList, single, indexOf, inside]

theorem picked_textList (ts : List Text) (position : Nat) :
    picked (Helper.textList ts) (.int position) = .ok (.text (aligned ts position)) := by
  rw [picked, picked?_textList, ok_bind]
  split
  · rfl
  · rename_i nowhere
    obtain ⟨several, behind⟩ := not_or.mp nowhere
    simp [aligned, several, behind, emptyText]

theorem pickedList_textList {ts : List Text} {position : Nat} (inside : position < ts.length) :
    pickedList (Helper.textList ts) (.int position) = .ok (.list [.text (aligned ts position)]) := by
  rw [pickedList, picked?_textList, ok_bind, if_pos (.inr inside)]
  rfl

theorem aligned_inside {ts : List Text} {position : Nat} (inside : position < ts.length) :
    aligned ts position = ts[position] := by
  unfold aligned
  split
  · obtain rfl : position = 0 := by omega
    rw [List.headD_eq_head?_getD, List.head?_eq_getElem?, List.getElem?_eq_getElem inside, Option.getD_some]
  · rw [List.getElem?_eq_getElem inside, Option.getD_some]

theorem broadcastLength_textList (lists : List (List Text)) :
    broadcastLength (lists.map Helper.textList) = .ok (longest lists) := by
  unfold broadcastLength longest
  have sizes : (lists.map Helper.textList).mapM sizeOf = .ok (lists.map List.length) := by
    rw [List.mapM_map]
    exact mapM_eq_map fun ts _ => sizeOf_textList ts
  rw [sizes]
  rfl

end ProfileConnector.Row
