import ProfileConnector.Text.Quoted

/-!
Texts that differ. Two texts are told apart by the first character in which they differ, so what follows
it does not matter and what stands in front of both does not either.
-/

namespace ProfileConnector

/-- Up to some place the texts are the same, and there they have different characters. -/
def Apart (s t : String) : Prop :=
  ∃ front c d back back', s.toList = front ++ c :: back ∧ t.toList = front ++ d :: back' ∧ c ≠ d

def Avoids (c : Char) (s : String) : Prop := ∃ d, s.toList.head? = some d ∧ d ≠ c

def Starts (c : Char) (s : String) : Prop := s.toList.head? = some c

theorem Starts.append {c : Char} {s : String} (starts : Starts c s) (t : String) : Starts c (s ++ t) := by
  rw [Starts, String.toList_append, List.head?_append, starts, Option.some_or]

theorem Starts.avoids {c d : Char} {s : String} (starts : Starts d s) (different : d ≠ c) : Avoids c s :=
  ⟨d, starts, different⟩

theorem Avoids.append {c : Char} {s : String} (avoids : Avoids c s) (t : String) : Avoids c (s ++ t) := by
  obtain ⟨d, starts, different⟩ := avoids
  exact (Starts.append starts t).avoids different

theorem Avoids.apart {c : Char} {s t : String} (avoids : Avoids c s) (starts : Starts c t) : Apart s t := by
  obtain ⟨d, own, different⟩ := avoids
  obtain ⟨back, own⟩ := List.head?_eq_some_iff.mp own
  obtain ⟨back', other⟩ := List.head?_eq_some_iff.mp starts
  exact ⟨[], d, c, back, back', own, other, different⟩

theorem intercalate_cons (sep part : String) (rest : List String) :
    sep.intercalate (part :: rest) = part ++ sep.intercalate ("" :: rest) := by
  rw [← String.intercalate_cons_append, String.append_empty]

namespace Apart

variable {s t : String}

theorem of_any (found : (s.toList.zip t.toList).any (fun pair => pair.1 != pair.2) = true) : Apart s t := by
  unfold Apart
  generalize s.toList = as, t.toList = bs at found ⊢
  induction as generalizing bs with
  | nil => simp at found
  | cons a as ih =>
    cases bs with
    | nil => simp at found
    | cons b bs =>
      by_cases same : a = b
      · subst same
        obtain ⟨front, c, d, back, back', rfl, rfl, different⟩ := ih bs (by simpa using found)
        exact ⟨a :: front, c, d, back, back', rfl, rfl, different⟩
      · exact ⟨[], a, b, as, bs, rfl, rfl, same⟩

theorem ne (apart : Apart s t) : s ≠ t := by
  rintro rfl
  obtain ⟨front, c, d, back, back', own, other, different⟩ := apart
  have same := List.append_cancel_left (own.symm.trans other)
  exact different (List.cons.inj same).1

theorem append (apart : Apart s t) (s' t' : String) : Apart (s ++ s') (t ++ t') := by
  obtain ⟨front, c, d, back, back', own, other, different⟩ := apart
  exact ⟨front, c, d, back ++ s'.toList, back' ++ t'.toList, by simp [own], by simp [other], different⟩

theorem behind (front : String) (apart : Apart s t) : Apart (front ++ s) (front ++ t) := by
  obtain ⟨before, c, d, back, back', own, other, different⟩ := apart
  exact ⟨front.toList ++ before, c, d, back, back', by simp [own], by simp [other], different⟩

theorem intercalate (sep : String) (front : List String) (apart : Apart s t) (back back' : List String) :
    Apart (sep.intercalate (front ++ s :: back)) (sep.intercalate (front ++ t :: back')) := by
  have later : Apart (sep.intercalate (s :: back)) (sep.intercalate (t :: back')) := by
    rw [intercalate_cons sep s, intercalate_cons sep t]
    exact apart.append _ _
  by_cases none : front = []
  · rw [none]
    exact later
  · rw [String.intercalate_append_of_ne_nil none (by simp), String.intercalate_append_of_ne_nil none (by simp)]
    exact later.behind _

end Apart

end ProfileConnector
