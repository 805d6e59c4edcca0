import Mathlib.Data.List.DropRight
import ProfileConnector.Identifier
import Std.Data.String.ToNat

/-!
Trimmed texts. What is trimmed starts and ends in a character that is not blank, and its capitalized form
ends in such a character as well; a text with such ends is left alone by trimming.
-/

namespace ProfileConnector.Text

/-! ## Ends of lists -/

section

variable {α : Type} {p : α → Bool}

theorem trimBy_eq_rdropWhile (p : α → Bool) (xs : List α) : trimBy p xs = (xs.dropWhile p).rdropWhile p := rfl

theorem trimBy_eq_self {x : α} {xs : List α} (first : p x = false) (last : ∀ y ∈ (x :: xs).getLast?, p y = false) :
    trimBy p (x :: xs) = x :: xs := by
  rw [trimBy_eq_rdropWhile, List.dropWhile_cons_of_neg (by simp [first]), List.rdropWhile_eq_self_iff]
  intro some
  simpa using last _ (List.getLast?_eq_some_getLast some)

theorem rdropWhile_append (front : List α) {back : List α} (last : ∀ y ∈ front.getLast?, p y = false) :
    (front ++ back).rdropWhile p = front ++ back.rdropWhile p := by
  induction back using List.reverseRecOn with
  | nil =>
    rw [List.append_nil, List.rdropWhile_nil, List.append_nil, List.rdropWhile_eq_self_iff]
    intro some
    simpa using last _ (List.getLast?_eq_some_getLast some)
  | append_singleton back y ih =>
    rw [← List.append_assoc, List.rdropWhile_concat, List.rdropWhile_concat, ih]
    split <;> simp

theorem getLast?_rdropWhile {xs : List α} {y : α} (last : (xs.rdropWhile p).getLast? = some y) : p y = false := by
  have some : xs.rdropWhile p ≠ [] := by rintro empty; simp [empty] at last
  have stays := List.rdropWhile_last_not p xs some
  rw [List.getLast?_eq_some_getLast some, Option.some.injEq] at last
  simpa [last] using stays

theorem head_trimBy {xs rest : List α} {x : α} (shape : trimBy p xs = x :: rest) : p x = false := by
  obtain ⟨back, whole⟩ := List.rdropWhile_prefix p (xs.dropWhile p)
  rw [← trimBy_eq_rdropWhile, shape] at whole
  have first := List.head?_dropWhile_not p xs
  simpa [← whole] using first

theorem trimBy_trimBy (p : α → Bool) (xs : List α) : trimBy p (trimBy p xs) = trimBy p xs := by
  match shape : trimBy p xs with
  | [] => rfl
  | x :: rest => exact trimBy_eq_self (head_trimBy shape) fun y last => getLast?_rdropWhile (shape ▸ last)

theorem trimBy_sublist (p : α → Bool) (xs : List α) : (trimBy p xs).Sublist xs :=
  (List.rdropWhile_prefix p _).sublist.trans (List.dropWhile_sublist p)

theorem trimBy_eq_nil_iff {xs : List α} : trimBy p xs = [] ↔ ∀ x ∈ xs, p x = true := by
  rw [trimBy_eq_rdropWhile, List.rdropWhile_eq_nil_iff]
  constructor
  · intro dropped x member
    by_contra stays
    rw [← List.takeWhile_append_dropWhile (p := p) (l := xs)] at member
    rcases List.mem_append.mp member with front | back
    · exact stays (List.mem_takeWhile_imp front)
    · exact stays (dropped x back)
  · exact fun all x member => all x ((List.dropWhile_sublist p).subset member)

end

/-! ## Characters -/

theorem isAsciiDigit_of_mem_repr {n : Nat} {c : Char} (member : c ∈ (Nat.repr n).toList) :
    isAsciiDigit c = true := by
  have digit := Nat.isDigit_of_mem_toDigits (by decide) (Nat.le_refl 10) (Nat.toList_repr ▸ member)
  simp only [Char.isDigit, Bool.and_eq_true, decide_eq_true_eq] at digit
  simp only [isAsciiDigit, Bool.and_eq_true, decide_eq_true_eq]
  exact digit

theorem isPart_of_mem_repr {n : Nat} {c : Char} (member : c ∈ (Nat.repr n).toList) : Identifier.isPart c = true := by
  simp [Identifier.isPart, Identifier.isAsciiWordChar, isAsciiDigit_of_mem_repr member]

theorem toNat_of_part {c : Char} (part : Identifier.isPart c = true) :
    (((97 ≤ c.toNat ∧ c.toNat ≤ 122) ∨ 65 ≤ c.toNat ∧ c.toNat ≤ 90) ∨ 48 ≤ c.toNat ∧ c.toNat ≤ 57) ∨
      c.toNat = 95 := by
  simp only [Identifier.isPart, Identifier.isAsciiWordChar, isAsciiLetter, isAsciiDigit, Bool.or_eq_true,
    Bool.and_eq_true, decide_eq_true_eq, beq_iff_eq, Char.le_def, UInt32.le_iff_toNat_le, ← Char.toNat_inj] at part
  exact part

theorem isBlank_of_part {c : Char} (part : Identifier.isPart c = true) : isBlank c = false := by
  by_contra blank
  have ranges := toNat_of_part part
  simp only [isBlank, inRanges, blankRanges, List.any_cons, List.any_nil, Bool.or_false, Bool.not_eq_false,
    Bool.or_eq_true, Bool.and_eq_true, decide_eq_true_eq] at blank
  omega

def EndsFilled (cs : List Char) : Prop := ∀ c, cs.getLast? = some c → isBlank c = false

theorem endsFilled_trimChars (cs : List Char) : EndsFilled (trimChars cs) := fun _ last => getLast?_rdropWhile last

theorem head_trimChars {cs rest : List Char} {c : Char} (shape : trimChars cs = c :: rest) : isBlank c = false :=
  head_trimBy shape

theorem trimChars_eq {c : Char} {rest : List Char} (first : isBlank c = false) (last : EndsFilled (c :: rest)) :
    trimChars (c :: rest) = c :: rest :=
  trimBy_eq_self first last

theorem EndsFilled.append {front back : List Char} (filled : EndsFilled back) (some : back ≠ []) :
    EndsFilled (front ++ back) := by
  intro c last
  rw [List.getLast?_append, List.getLast?_eq_some_getLast some, Option.some_or] at last
  exact filled c (List.getLast?_eq_some_getLast some ▸ last)

/-! ## Capital forms -/

def CaseRun.avoids (table : List (Nat × Nat)) (run : CaseRun) : Bool :=
  table.all fun (low, high) =>
    decide ((run.start + run.count * run.step : Int) + run.shift < low + run.step ∨
      (high : Int) < run.start + run.shift)

theorem CaseRun.le_of_covers {run : CaseRun} {code : Nat} (covered : run.covers code = true) :
    run.start ≤ code ∧ code + run.step ≤ run.start + run.count * run.step := by
  simp only [covers, Bool.and_eq_true, decide_eq_true_eq, beq_iff_eq] at covered
  obtain ⟨⟨above, below⟩, aligned⟩ := covered
  obtain ⟨k, place⟩ := Nat.dvd_of_mod_eq_zero aligned
  have inside : run.step * k < run.step * run.count := by
    rw [← place, Nat.mul_comm run.step run.count]
    omega
  have next : run.step * (k + 1) ≤ run.step * run.count :=
    Nat.mul_le_mul_left _ (Nat.lt_of_mul_lt_mul_left inside)
  rw [Nat.mul_succ, ← place, Nat.mul_comm run.step run.count] at next
  omega

theorem toNat_ofNat_or (code : Nat) : (Char.ofNat code).toNat = code ∨ (Char.ofNat code).toNat = 0 := by
  by_cases valid : code.isValidChar
  · exact Or.inl (by rw [Char.ofNat, dif_pos valid]; rfl)
  · exact Or.inr (by rw [Char.ofNat, dif_neg valid]; rfl)

theorem inRanges_shifted {table : List (Nat × Nat)} {run : CaseRun} {code : Nat}
    (positive : ∀ range ∈ table, 0 < range.1) (covered : run.covers code = true) (avoids : run.avoids table = true) :
    inRanges table (Char.ofNat (run.shift + (code : Int)).toNat).toNat = false := by
  obtain ⟨above, below⟩ := CaseRun.le_of_covers covered
  simp only [inRanges, List.any_eq_false, Bool.and_eq_true, decide_eq_true_eq, Prod.forall]
  intro low high listed
  have apart := List.all_eq_true.mp avoids (low, high) listed
  simp only [decide_eq_true_eq] at apart
  have nonzero : 0 < low := positive (low, high) listed
  have upper : (code : Int) + run.step ≤ run.start + run.count * run.step := by exact_mod_cast below
  rcases toNat_ofNat_or (run.shift + (code : Int)).toNat with placed | placed
  · rw [placed]
    omega
  · rw [placed]
    omega

theorem inRanges_getD_shifted {table : List (Nat × Nat)} {runs : List CaseRun} {c : Char}
    (positive : ∀ range ∈ table, 0 < range.1) (avoids : ∀ run ∈ runs, run.avoids table = true)
    (kept : shifted runs c = none → inRanges table c.toNat = false) :
    inRanges table ((shifted runs c).getD c).toNat = false := by
  unfold shifted at kept ⊢
  cases found : runs.find? (·.covers c.toNat) with
  | none => exact kept (by rw [found]; rfl)
  | some run =>
    have covered : run.covers c.toNat = true := by simpa using List.find?_some found
    exact inRanges_shifted positive covered (avoids run (List.mem_of_find?_eq_some found))

theorem capital_filled (c : Char) : capital c ≠ [] ∧ (isBlank c = false → EndsFilled (capital c)) := by
  have runs : ∀ run ∈ capitalRuns, run.avoids blankRanges = true := List.all_eq_true.mp (by decide)
  have forms : ∀ entry ∈ longCapitals, entry.2.toList.getLast?.any (!isBlank ·) = true :=
    List.all_eq_true.mp (by decide)
  unfold capital
  split
  · rename_i form found
    have listed : (c.toNat, form) ∈ longCapitals := by
      obtain ⟨before, after, split, _⟩ := List.lookup_eq_some_iff.mp found
      simp [split]
    have filled := forms _ listed
    refine ⟨fun empty => ?_, fun _ d last => ?_⟩
    · rw [empty] at filled
      cases filled
    · simpa [last] using filled
  · refine ⟨by simp, fun filled d last => ?_⟩
    obtain rfl : (shifted capitalRuns c).getD c = d := by simpa using last
    exact inRanges_getD_shifted (by decide) runs fun _ => filled

theorem endsFilled_capitalized {cs : List Char} (filled : EndsFilled cs) : EndsFilled (capitalized cs) := by
  cases cs with
  | nil => exact filled
  | cons c rest =>
    rw [capitalized]
    by_cases alone : rest = []
    · rw [alone, List.append_nil]
      exact (capital_filled c).2 (filled c (by simp [alone]))
    · have tail : EndsFilled rest := fun d last => filled d (by
        rw [← List.singleton_append, List.getLast?_append, last, Option.some_or])
      exact tail.append alone

end ProfileConnector.Text
