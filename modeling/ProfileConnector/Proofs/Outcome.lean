import Mathlib.Data.List.Forall2

/-!
Computations that may fail. A sequence of steps succeeds exactly when each step does, and a list is
run through with success exactly when every element is.
-/

namespace ProfileConnector.Outcome

variable {ε α β : Type}

@[simp] theorem ok_bind (a : α) (f : α → Except ε β) : (Except.ok a >>= f) = f a := rfl

@[simp] theorem error_bind (e : ε) (f : α → Except ε β) : (Except.error e >>= f) = .error e := rfl

@[simp] theorem pure_eq_ok (a : α) : (pure a : Except ε α) = .ok a := rfl

@[simp] theorem map_ok (f : α → β) (a : α) : (Except.ok a : Except ε α).map f = .ok (f a) := rfl

theorem bind_eq_ok {x : Except ε α} {f : α → Except ε β} {b : β} :
    (x >>= f) = .ok b ↔ ∃ a, x = .ok a ∧ f a = .ok b := by
  cases x with
  | error e => simp
  | ok a => simp

theorem bind_eq_map {f : α → Except ε β} {g : α → β} (each : ∀ a, f a = .ok (g a)) (x : Except ε α) :
    (x >>= f) = x.map g := by
  cases x with
  | error e => rfl
  | ok a => exact each a

theorem bind_eq_error {x : Except ε α} {f : α → Except ε β} {e : ε} :
    (x >>= f) = .error e ↔ x = .error e ∨ ∃ a, x = .ok a ∧ f a = .error e := by
  cases x with
  | error e => simp
  | ok a => simp

theorem map_eq_ok {x : Except ε α} {f : α → β} {b : β} :
    x.map f = .ok b ↔ ∃ a, x = .ok a ∧ f a = b := by
  cases x with
  | error e => simp [Except.map]
  | ok a => simp

theorem map_eq_error {x : Except ε α} {f : α → β} {e : ε} : x.map f = .error e ↔ x = .error e := by
  cases x <;> simp [Except.map]

theorem mapError_eq_ok {ε' : Type} {x : Except ε α} {f : ε → ε'} {a : α} : x.mapError f = .ok a ↔ x = .ok a := by
  cases x <;> simp [Except.mapError]

theorem toOption_eq_some {x : Except ε α} {a : α} : x.toOption = some a ↔ x = .ok a := by
  cases x <;> simp [Except.toOption]

theorem mapM_eq_ok {f : α → Except ε β} {xs : List α} {ys : List β} :
    xs.mapM f = .ok ys ↔ List.Forall₂ (fun x y => f x = .ok y) xs ys := by
  induction xs generalizing ys with
  | nil => cases ys <;> simp
  | cons x xs ih =>
    rw [List.mapM_cons, bind_eq_ok]
    constructor
    · rintro ⟨y, first, remaining⟩
      obtain ⟨zs, others, result⟩ := bind_eq_ok.mp remaining
      cases result
      exact .cons first (ih.mp others)
    · rintro (_ | ⟨first, others⟩)
      exact ⟨_, first, bind_eq_ok.mpr ⟨_, ih.mpr others, rfl⟩⟩

theorem mapM_eq_error {f : α → Except ε β} {xs : List α} {e : ε} (failed : xs.mapM f = .error e) :
    ∃ x ∈ xs, f x = .error e := by
  induction xs with
  | nil => cases failed
  | cons x xs ih =>
    rw [List.mapM_cons] at failed
    rcases bind_eq_error.mp failed with first | ⟨y, _, remaining⟩
    · exact ⟨x, List.mem_cons_self, first⟩
    · rcases bind_eq_error.mp remaining with others | ⟨ys, _, impossible⟩
      · obtain ⟨found, member, failure⟩ := ih others
        exact ⟨found, List.mem_cons_of_mem x member, failure⟩
      · cases impossible

theorem exists_left {related : α → β → Prop} {xs : List α} {ys : List β} (each : List.Forall₂ related xs ys) {y : β}
    (member : y ∈ ys) : ∃ x ∈ xs, related x y := by
  induction each with
  | nil => cases member
  | cons first _ ih =>
    rcases List.mem_cons.mp member with rfl | later
    · exact ⟨_, List.mem_cons_self, first⟩
    · obtain ⟨x, listed, holds⟩ := ih later
      exact ⟨x, List.mem_cons_of_mem _ listed, holds⟩

theorem exists_right {related : α → β → Prop} {xs : List α} {ys : List β} (each : List.Forall₂ related xs ys) {x : α}
    (member : x ∈ xs) : ∃ y ∈ ys, related x y :=
  exists_left (List.Forall₂.flip each) member

theorem mapM_total {f : α → Except ε β} {xs : List α} {ys : List β} (done : xs.mapM f = .ok ys)
    {x : α} (member : x ∈ xs) : ∃ y ∈ ys, f x = .ok y :=
  exists_right (mapM_eq_ok.mp done) member

theorem mem_of_mapM {f : α → Except ε β} {xs : List α} {ys : List β} (done : xs.mapM f = .ok ys) (y : β) :
    y ∈ ys ↔ ∃ x ∈ xs, f x = .ok y := by
  refine ⟨exists_left (mapM_eq_ok.mp done), ?_⟩
  rintro ⟨x, member, value⟩
  obtain ⟨other, listed, same⟩ := mapM_total done member
  cases value.symm.trans same
  exact listed

theorem mapM_isOk {f : α → Except ε β} {xs : List α} :
    (∃ ys, xs.mapM f = .ok ys) ↔ ∀ x ∈ xs, ∃ y, f x = .ok y := by
  constructor
  · rintro ⟨ys, done⟩ x member
    obtain ⟨y, _, value⟩ := mapM_total done member
    exact ⟨y, value⟩
  · intro each
    cases outcome : xs.mapM f with
    | ok ys => exact ⟨ys, rfl⟩
    | error e =>
      obtain ⟨x, member, failed⟩ := mapM_eq_error outcome
      obtain ⟨y, value⟩ := each x member
      cases value.symm.trans failed

theorem map_of_mapM {γ : Type} {f : α → Except ε β} {xs : List α} {ys : List β} {given : α → γ} {result : β → γ}
    (done : xs.mapM f = .ok ys) (each : ∀ x ∈ xs, ∀ y, f x = .ok y → result y = given x) :
    ys.map result = xs.map given := by
  have related := mapM_eq_ok.mp done
  clear done
  induction related with
  | nil => rfl
  | cons first _ ih =>
    rw [List.map_cons, List.map_cons, each _ List.mem_cons_self _ first,
      ih fun x member => each x (List.mem_cons_of_mem _ member)]

theorem map_eq_iff_of_mapM {γ : Type} {f : α → Except ε β} {g : α → Except ε γ} {result : β → γ} {xs : List α}
    {ys : List β} {zs : List γ} (first : xs.mapM f = .ok ys) (second : xs.mapM g = .ok zs) :
    ys.map result = zs ↔ ∀ x ∈ xs, (f x).map result = g x := by
  have related := mapM_eq_ok.mp first
  have others := mapM_eq_ok.mp second
  clear first second
  induction related generalizing zs with
  | nil => cases others; simp
  | cons here _ ih =>
    cases others with
    | cons here' there' => simp [here, here', ih there']

theorem mapM_congr {f g : α → Except ε β} {xs : List α} (same : ∀ x ∈ xs, f x = g x) : xs.mapM f = xs.mapM g := by
  induction xs with
  | nil => rfl
  | cons x xs ih =>
    rw [List.mapM_cons, List.mapM_cons, same x List.mem_cons_self, ih fun y member => same y (List.mem_cons_of_mem x member)]

theorem mapM_eq_map {f : α → Except ε β} {g : α → β} {xs : List α} (values : ∀ x ∈ xs, f x = .ok (g x)) :
    xs.mapM f = .ok (xs.map g) := by
  induction xs with
  | nil => rfl
  | cons x xs ih =>
    rw [List.mapM_cons, values x List.mem_cons_self, ok_bind,
      ih fun y member => values y (List.mem_cons_of_mem x member)]
    rfl

end ProfileConnector.Outcome
