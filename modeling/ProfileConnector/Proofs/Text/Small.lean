import ProfileConnector.Proofs.Text.Trimmed
import ProfileConnector.Text.Small

/-!
Texts in small form. Besides itself only a few characters become a small ASCII letter, and a small form
holds none of these; so a text in small form whose own small form is a word of ASCII letters is that
word already.
-/

namespace ProfileConnector.Text

def letterRanges : List (Nat × Nat) := [(0x61, 0x7A)]

/-- The characters, small ASCII letters aside, whose small form holds such a letter. -/
def letterSources : List (Nat × Nat) := [(0x41, 0x5A), (0x130, 0x130), (0x212A, 0x212A)]

def CaseRun.within (table : List (Nat × Nat)) (run : CaseRun) : Bool :=
  table.any fun (low, high) => low ≤ run.start && run.start + run.count * run.step ≤ high + 1

theorem inRanges_of_covers {table : List (Nat × Nat)} {run : CaseRun} {code : Nat} (within : run.within table = true)
    (covered : run.covers code = true) : inRanges table code = true := by
  simp only [CaseRun.covers, Bool.and_eq_true, decide_eq_true_eq] at covered
  obtain ⟨⟨low, high⟩, listed, bounds⟩ := List.any_eq_true.mp within
  simp only [Bool.and_eq_true, decide_eq_true_eq] at bounds
  exact List.any_eq_true.mpr ⟨(low, high), listed, by simp; omega⟩

theorem exists_run {c : Char} (source : inRanges letterSources c.toNat = true) (dotless : c ≠ 'İ') :
    ∃ run, smallRuns.find? (·.covers c.toNat) = some run := by
  have full : ∀ range ∈ letterSources, range = (0x130, 0x130) ∨
      ∃ run ∈ smallRuns, run.step = 1 ∧ run.start ≤ range.1 ∧ range.2 < run.start + run.count := by
    decide +kernel
  obtain ⟨⟨low, high⟩, listed, bounds⟩ := List.any_eq_true.mp source
  simp only [Bool.and_eq_true, decide_eq_true_eq] at bounds
  rcases full _ listed with dotted | ⟨run, member, single, first, last⟩
  · cases dotted
    exact absurd (Char.toNat_inj.mp (show c.toNat = 0x130 by omega)) dotless
  · refine Option.isSome_iff_exists.mp (List.find?_isSome.mpr ⟨run, member, ?_⟩)
    simp only [CaseRun.covers, single, Nat.mod_one, Nat.mul_one, BEq.rfl, Bool.and_true, Bool.and_eq_true,
      decide_eq_true_eq]
    omega

theorem small_avoids {table : List (Nat × Nat)} {before after : List Char} {c d : Char}
    (positive : ∀ range ∈ table, 0 < range.1) (runs : ∀ run ∈ smallRuns, run.avoids table = true)
    (fixed : ['ς', 'σ', 'i', '\u0307'].all (fun own => !inRanges table own.toNat) = true)
    (kept : c ≠ 'İ' → shifted smallRuns c = none → inRanges table c.toNat = false)
    (member : d ∈ small before after c) : inRanges table d.toNat = false := by
  have outside (own : Char) (listed : own ∈ ['ς', 'σ', 'i', '\u0307']) : inRanges table own.toNat = false := by
    simpa using List.all_eq_true.mp fixed own listed
  unfold small at member
  split at member
  · split at member <;> cases List.mem_singleton.mp member <;> exact outside _ (by simp)
  · split at member
    · exact outside d (List.mem_append_right ['ς', 'σ'] member)
    · rename_i dotless
      cases List.mem_singleton.mp member
      exact inRanges_getD_shifted positive runs (kept dotless)

theorem not_source_of_mem_small {before after : List Char} {c d : Char} (member : d ∈ small before after c) :
    inRanges letterSources d.toNat = false := by
  refine small_avoids (by decide) (List.all_eq_true.mp (by decide)) (by decide) (fun dotless none => ?_) member
  refine Bool.eq_false_iff.mpr fun source => ?_
  obtain ⟨run, covered⟩ := exists_run source dotless
  simp [shifted, covered] at none

theorem small_eq_self {before after : List Char} {c : Char} (plain : inRanges letterSources c.toNat = false)
    (letters : ∀ d ∈ small before after c, inRanges letterRanges d.toNat = true) : small before after c = [c] := by
  have sources : smallRuns.all (fun run => run.avoids letterRanges || run.within letterSources) = true := by decide
  unfold small at letters ⊢
  split
  · rename_i sigma
    simp only [sigma, if_true] at letters
    split at letters
    · cases letters 'ς' List.mem_cons_self
    · cases letters 'σ' List.mem_cons_self
  · rename_i other
    split
    · rename_i dotted
      simp [dotted, inRanges, letterSources] at plain
    · rename_i dotless
      simp only [other, dotless, if_false] at letters
      unfold shifted at letters ⊢
      cases found : smallRuns.find? (·.covers c.toNat) with
      | none => rfl
      | some run =>
        have covered : run.covers c.toNat = true := by simpa using List.find?_some found
        have letter := letters _ (by rw [found]; exact List.mem_cons_self)
        have either := List.all_eq_true.mp sources run (List.mem_of_find?_eq_some found)
        rcases Bool.or_eq_true_iff.mp either with apart | within
        · have distinct := inRanges_shifted (by decide) covered apart
          exact absurd (distinct.symm.trans letter) Bool.false_ne_true
        · cases plain.symm.trans (inRanges_of_covers within covered)

theorem smallChars_eq_self {before cs : List Char} (plain : ∀ c ∈ cs, inRanges letterSources c.toNat = false)
    (letters : ∀ d ∈ smallChars before cs, inRanges letterRanges d.toNat = true) : smallChars before cs = cs := by
  induction cs generalizing before with
  | nil => rfl
  | cons c rest ih =>
    have first : small before rest c = [c] :=
      small_eq_self (plain c List.mem_cons_self) fun d member => letters d (List.mem_append_left _ member)
    rw [smallChars, first, ih (fun d member => plain d (List.mem_cons_of_mem c member))
      fun d member => letters d (List.mem_append_right _ member)]
    rfl

theorem not_source_of_mem_smallChars {before cs : List Char} {d : Char} (member : d ∈ smallChars before cs) :
    inRanges letterSources d.toNat = false := by
  induction cs generalizing before with
  | nil => cases member
  | cons c rest ih =>
    rcases List.mem_append.mp member with here | later
    · exact not_source_of_mem_small here
    · exact ih later

/-! ## Ends -/

theorem small_ne_nil (before after : List Char) (c : Char) : small before after c ≠ [] := by
  unfold small
  split
  · exact List.cons_ne_nil _ _
  · split <;> exact List.cons_ne_nil _ _

theorem small_filled {before after : List Char} {c d : Char} (filled : isBlank c = false)
    (member : d ∈ small before after c) : isBlank d = false := by
  have runs : ∀ run ∈ smallRuns, run.avoids blankRanges = true := List.all_eq_true.mp (by decide)
  exact small_avoids (by decide) runs (by decide) (fun _ _ => filled) member

theorem endsFilled_smallChars {before cs : List Char} (filled : EndsFilled cs) : EndsFilled (smallChars before cs) := by
  induction cs generalizing before with
  | nil => exact filled
  | cons c rest ih =>
    rw [smallChars]
    cases rest with
    | nil =>
      intro d last
      rw [smallChars, List.append_nil] at last
      exact small_filled (filled c rfl) (List.mem_of_getLast? last)
    | cons next others =>
      have tail : EndsFilled (next :: others) := fun d last => filled d (by rw [List.getLast?_cons_cons, last])
      exact (ih tail).append (List.append_ne_nil_of_left_ne_nil (small_ne_nil _ _ _) _)

theorem trimChars_smallChars (cs : List Char) :
    trimChars (smallChars [] (trimChars cs)) = smallChars [] (trimChars cs) := by
  cases shape : trimChars cs with
  | nil => rfl
  | cons c rest =>
    have ends := @endsFilled_smallChars [] _ (shape ▸ endsFilled_trimChars cs)
    obtain ⟨d, others, first⟩ := List.exists_cons_of_ne_nil (small_ne_nil [] rest c)
    have member : d ∈ small [] rest c := first ▸ List.mem_cons_self
    rw [smallChars, first] at ends ⊢
    exact trimChars_eq (small_filled (head_trimChars shape) member) ends

end ProfileConnector.Text
