import Mathlib.Data.List.Basic
import ProfileConnector.Path.Step

/-!
What steps reach. Steps that follow each other reach one after the other, and no two lists of steps reach
the same values in all documents. Where a document is changed, the steps to the place reach what it is changed to.
-/

namespace ProfileConnector.Path

theorem reached_nil (value : Value) : reached [] value = [value] := rfl

theorem foldl_from (steps : List Step) (values : List Value) :
    steps.foldl (fun values step => values.flatMap step.from) values = values.flatMap (reached steps) := by
  induction steps generalizing values with
  | nil => exact (List.flatMap_singleton' values).symm
  | cons step steps ih =>
    have each (value : Value) : reached (step :: steps) value = (step.from value).flatMap (reached steps) := by
      rw [reached, List.foldl_cons, ih, List.flatMap_singleton]
    rw [List.foldl_cons, ih, List.flatMap_assoc]
    exact List.flatMap_congr fun value _ => (each value).symm

theorem reached_cons (step : Step) (steps : List Step) (value : Value) :
    reached (step :: steps) value = (step.from value).flatMap (reached steps) := by
  rw [reached, List.foldl_cons, foldl_from, List.flatMap_singleton]

theorem reached_append (front back : List Step) (value : Value) :
    reached (front ++ back) value = (reached front value).flatMap (reached back) := by
  rw [reached, List.foldl_append, foldl_from, ← reached]

theorem reached_entries {steps : List Step} {document : Value} {items : List Value}
    (array : reached steps document = [.list items]) : reached (steps ++ [.wildcard]) document = items := by
  rw [reached_append, array, List.flatMap_singleton, reached_cons]
  exact List.flatMap_singleton' items

/-! ## Documents for given steps -/

def Step.place (i : Int) (size : Nat) : Nat := (if i < 0 then i + size else i).toNat

def Step.alone (size place : Nat) (value : Value) : Value := .list ((List.replicate size .null).set place value)

namespace Step

theorem place_lt {i : Int} {size : Nat} (room : i.natAbs < size) : place i size < size := by
  unfold place
  split <;> omega

theorem place_ne {i j : Int} (different : i ≠ j) {size : Nat} (room : i.natAbs + j.natAbs < size) :
    place i size ≠ place j size := by
  unfold place
  split <;> split <;> omega

theorem from_index {i : Int} {items : List Value} (room : i.natAbs < items.length) :
    (Step.index i).from (.list items) = (items[place i items.length]?).toList := by
  have inside : ¬ (if i < 0 then i + (items.length : Int) else i) < 0 := by split <;> omega
  simp only [Step.from, inside, if_false, place]

theorem from_alone {i : Int} {size : Nat} (room : i.natAbs < size) (value : Value) :
    (Step.index i).from (alone size (place i size) value) = [value] := by
  rw [alone, from_index (by simpa using room)]
  simp [place_lt room]

theorem from_alone_ne {i j : Int} (different : i ≠ j) {size : Nat} (room : i.natAbs + j.natAbs < size) (value : Value) :
    (Step.index j).from (alone size (place i size) value) = [.null] := by
  have inside : place j size < size := place_lt (by omega)
  rw [alone, from_index (by simp; omega)]
  simp [place_ne different room, inside]

/-- A value from which the step leads to the given one alone. -/
def holding (step : Step) (value : Value) : Value :=
  match step with
  | .member name => .record [(name, value)]
  | .index i => alone (i.natAbs + 1) (place i (i.natAbs + 1)) value
  | .wildcard => .list [value]

theorem from_holding (step : Step) (value : Value) : step.from (step.holding value) = [value] := by
  cases step with
  | member name => simp [holding, Step.from, KeyedList.get?]
  | index i => exact from_alone (Nat.lt_succ_self _) value
  | wildcard => rfl

end Step

def sample (steps : List Step) (value : Value) : Value := steps.foldr Step.holding value

theorem reached_sample (steps : List Step) (value : Value) : reached steps (sample steps value) = [value] := by
  induction steps with
  | nil => rfl
  | cons step steps ih =>
    rw [reached_cons, sample, List.foldr_cons, Step.from_holding, List.flatMap_singleton, ← sample, ih]

theorem from_null (step : Step) : step.from .null = [] := by cases step <;> rfl

theorem not_mem_reached_null (steps : List Step) (b : Bool) : .bool b ∉ reached steps .null := by
  cases steps with
  | nil => simp [reached_nil]
  | cons step steps => simp [reached_cons, from_null]

theorem exists_apart {step other : Step} (different : step ≠ other) (steps others : List Step) :
    ∃ document, reached (step :: steps) document ≠ reached (other :: others) document := by
  have own := reached_sample steps (.bool true)
  have foreign := reached_sample others (.bool true)
  -- The document has a value where one of the two steps looks, and nothing where the other one does.
  cases step with
  | member name =>
    cases other with
    | member name' =>
      refine ⟨.record [(name, sample steps (.bool true))], ?_⟩
      have apart : name ≠ name' := by simpa using different
      simp [reached_cons, Step.from, KeyedList.get?, own, apart]
    | index j =>
      refine ⟨.record [(name, sample steps (.bool true))], ?_⟩
      simp [reached_cons, Step.from, KeyedList.get?, own]
    | wildcard =>
      refine ⟨.list [sample others (.bool true)], ?_⟩
      simp [reached_cons, Step.from, foreign]
  | index i =>
    cases other with
    | member name' =>
      refine ⟨.record [(name', sample others (.bool true))], ?_⟩
      simp [reached_cons, Step.from, KeyedList.get?, foreign]
    | index j =>
      have apart : i ≠ j := by simpa using different
      let size := i.natAbs + j.natAbs + 1
      refine ⟨Step.alone size (Step.place i size) (sample steps (.bool true)), fun same => ?_⟩
      rw [reached_cons, reached_cons, Step.from_alone (by omega), Step.from_alone_ne apart (by omega),
        List.flatMap_singleton, List.flatMap_singleton, own] at same
      exact not_mem_reached_null others true (same ▸ List.mem_singleton_self _)
    | wildcard =>
      refine ⟨.record [([], sample others (.bool true))], ?_⟩
      simp [reached_cons, Step.from, foreign]
  | wildcard =>
    cases other with
    | member name' =>
      refine ⟨.list [sample steps (.bool true)], ?_⟩
      simp [reached_cons, Step.from, own]
    | index j =>
      refine ⟨.record [([], sample steps (.bool true))], ?_⟩
      simp [reached_cons, Step.from, own]
    | wildcard => exact absurd rfl different

/-- Steps are known from what they reach. -/
theorem reached_injective : Function.Injective reached := by
  intro steps others same
  induction steps generalizing others with
  | nil =>
    cases others with
    | nil => rfl
    | cons other others =>
      have null := congrFun same .null
      simp [reached_nil, reached_cons, from_null] at null
  | cons step steps ih =>
    cases others with
    | nil =>
      have null := congrFun same .null
      simp [reached_nil, reached_cons, from_null] at null
    | cons other others =>
      by_cases equal : step = other
      · subst equal
        refine congrArg (step :: ·) (ih (funext fun value => ?_))
        have held := congrFun same (step.holding value)
        simpa [reached_cons, Step.from_holding] using held
      · obtain ⟨document, differ⟩ := exists_apart equal steps others
        exact absurd (congrFun same document) differ

/-! ## Documents with other values -/

def Step.update (step : Step) (change : Value → Value) (value : Value) : Value :=
  match step, value with
  | .wildcard, .list items => .list (items.map change)
  | .wildcard, .record members => .record (members.map fun (name, inner) => (name, change inner))
  | .index i, .list items =>
    let place := if i < 0 then i + items.length else i
    if place < 0 then .list items else .list (items.modify place.toNat change)
  | .member name, .record members =>
    match KeyedList.get? name members with
    | some inner => .record (KeyedList.put name (change inner) members)
    | none => .record members
  | _, value => value

theorem Step.from_update (step : Step) (change : Value → Value) (value : Value) :
    step.from (step.update change value) = (step.from value).map change := by
  cases step with
  | wildcard => cases value <;> simp [Step.update, Step.from, Function.comp_def]
  | index i =>
    cases value with
    | list items =>
      by_cases outside : (if i < 0 then i + (items.length : Int) else i) < 0
      · simp [Step.update, Step.from, outside]
      · simp only [Step.update, Step.from, outside, if_false, List.length_modify, List.getElem?_modify, if_true]
        cases items[(if i < 0 then i + (items.length : Int) else i).toNat]? <;> rfl
    | _ => rfl
  | member name =>
    cases value with
    | record members =>
      cases found : KeyedList.get? name members <;> simp [Step.update, Step.from, found, KeyedList.get?_put]
    | _ => rfl

/-- A document with other values in the places that the steps reach. -/
def updated (steps : List Step) (change : Value → Value) (document : Value) : Value :=
  steps.foldr Step.update change document

theorem reached_updated (steps : List Step) (change : Value → Value) (document : Value) :
    reached steps (updated steps change document) = (reached steps document).map change := by
  induction steps generalizing document with
  | nil => rfl
  | cons step steps ih =>
    rw [updated, List.foldr_cons, reached_cons, Step.from_update, reached_cons, List.flatMap_map, List.map_flatMap]
    exact List.flatMap_congr fun value _ => ih value

end ProfileConnector.Path
