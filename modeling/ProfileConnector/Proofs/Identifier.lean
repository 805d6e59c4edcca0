import Mathlib.Data.List.Nodup
import Mathlib.Data.List.Perm.Subperm
import ProfileConnector.Identifier
import ProfileConnector.Proofs.Text.Small
import Std.Data.String.ToNat

/-!
What identifiers are made of. A type name is an identifier of ASCII letters, digits and underscores; a
member name is one only if its name goes on like one. A fresh variable name is none of the names in use.
-/

namespace ProfileConnector.Identifier

/-! ## Characters -/

theorem separates_of_mem_words {separates : Char → Bool} {cs word : List Char} (member : word ∈ words separates cs) :
    ∀ c ∈ word, separates c = false := by
  induction cs generalizing word with
  | nil => cases member
  | cons c rest ih =>
    unfold words at member
    split at member
    · exact ih member
    · rename_i kept
      have own : separates c = false := by simpa using kept
      split at member
      · rename_i next _ first others shape
        split at member
        · rcases List.mem_cons.mp member with rfl | later
          · simpa using own
          · exact ih (shape ▸ later)
        · rcases List.mem_cons.mp member with rfl | later
          · rintro d (_ | ⟨_, inside⟩)
            · exact own
            · exact ih (shape ▸ List.mem_cons_self) d inside
          · exact ih (shape ▸ List.mem_cons_of_mem _ later)
      · rcases List.mem_cons.mp member with rfl | later
        · simpa using own
        · exact ih later

theorem forall_isPart {p : Char → Prop} (codes : ∀ code < 0x7B, isPart (Char.ofNat code) = true → p (Char.ofNat code))
    {c : Char} (part : isPart c = true) : p c := by
  have low : c.toNat < 0x7B := by
    have ranges := Text.toNat_of_part part
    omega
  simpa using codes c.toNat low (by simpa using part)

theorem isPart_of_isAsciiWordChar {c : Char} (plain : isAsciiWordChar c = true) : isPart c = true := by
  simp [isPart, plain]

theorem isPart_of_isStart {c : Char} (start : isStart c = true) : isPart c = true := by
  rw [isStart, Bool.or_eq_true] at start
  simp only [isPart, isAsciiWordChar, Bool.or_eq_true]
  exact start.imp_left Or.inl

theorem isAsciiWordChar_toUpper {c : Char} (plain : isAsciiWordChar c = true) : isAsciiWordChar c.toUpper = true :=
  forall_isPart (p := fun c => isAsciiWordChar c = true → isAsciiWordChar c.toUpper = true) (by decide)
    (isPart_of_isAsciiWordChar plain) plain

theorem toUpper_toUpper {c : Char} (plain : isAsciiWordChar c = true) : c.toUpper.toUpper = c.toUpper :=
  forall_isPart (p := fun c => c.toUpper.toUpper = c.toUpper) (by decide) (isPart_of_isAsciiWordChar plain)

theorem isStart_toLower {c : Char} (start : isStart c = true) : isStart c.toLower = true :=
  forall_isPart (p := fun c => isStart c = true → isStart c.toLower = true) (by decide)
    (isPart_of_isStart start) start

theorem isAsciiWordChar_of_mem {name : List Char} {c : Char}
    (member : c ∈ (words (fun c => !isAsciiWordChar c) name).flatMap upperFirst) : isAsciiWordChar c = true := by
  obtain ⟨word, inside, own⟩ := List.mem_flatMap.mp member
  have letters : ∀ d ∈ word, isAsciiWordChar d = true := fun d listed => by
    simpa using separates_of_mem_words inside d listed
  cases word with
  | nil => cases own
  | cons first rest =>
    rcases List.mem_cons.mp own with rfl | later
    · exact isAsciiWordChar_toUpper (letters first List.mem_cons_self)
    · exact letters c (List.mem_cons_of_mem _ later)

theorem isPart_of_mem_typeChars {name : List Char} {c : Char} (member : c ∈ typeChars name) : isPart c = true := by
  have plain : ∀ d ∈ (words (fun c => !isAsciiWordChar c) name).flatMap upperFirst, isPart d = true :=
    fun d listed => isPart_of_isAsciiWordChar (isAsciiWordChar_of_mem listed)
  unfold typeChars at member
  split at member
  · exact List.all_eq_true.mp (show "Item".toList.all isPart = true by decide) c member
  · rename_i first rest shape
    split at member
    · exact plain c (shape ▸ member)
    · rcases List.mem_cons.mp member with rfl | later
      · rfl
      · exact plain c (shape ▸ later)

theorem isIdentifier_iff {c : Char} {rest : List Char} :
    isIdentifier (c :: rest) = true ↔ isStart c = true ∧ ∀ d ∈ rest, isPart d = true := by
  simp [isIdentifier]

theorem isIdentifier_append {cs parts : List Char} (filled : cs ≠ []) (each : ∀ c ∈ parts, isPart c = true) :
    isIdentifier (cs ++ parts) = isIdentifier cs := by
  obtain ⟨c, rest, rfl⟩ := List.exists_cons_of_ne_nil filled
  rw [Bool.eq_iff_iff, List.cons_append, isIdentifier_iff, isIdentifier_iff, List.forall_mem_append, and_iff_left each]

theorem isIdentifier_typeChars (name : List Char) : isIdentifier (typeChars name) = true := by
  have parts := @isPart_of_mem_typeChars name
  unfold typeChars at parts ⊢
  split
  · decide
  · rename_i first rest shape
    rw [shape] at parts
    dsimp only at parts
    split
    · rename_i start
      rw [if_pos start] at parts
      exact isIdentifier_iff.mpr ⟨start, fun d later => parts (List.mem_cons_of_mem _ later)⟩
    · rename_i start
      rw [if_neg start] at parts
      exact isIdentifier_iff.mpr ⟨rfl, fun d later => parts (List.mem_cons_of_mem _ later)⟩

/-! ## Fresh names -/

theorem candidate_injective (base : String) : Function.Injective (candidate base) := by
  have numbered (k : Nat) : candidate base (k + 1) ≠ base := by
    intro same
    have empty : base ++ toString (k + 1) = base ++ "" := same.trans (by simp)
    have digits := congrArg String.length ((String.append_right_inj base).mp empty)
    simp at digits
  intro i j same
  match i, j with
  | 0, 0 => rfl
  | 0, j + 1 => exact absurd same.symm (numbered j)
  | i + 1, 0 => exact absurd same (numbered i)
  | i + 1, j + 1 => exact Nat.repr_injective ((String.append_right_inj base).mp same)

theorem exists_free (base : String) (used : List String) :
    ∃ k ∈ List.range (used.length + 1), candidate base k ∉ used := by
  by_contra taken
  push Not at taken
  have distinct : ((List.range (used.length + 1)).map (candidate base)).Nodup :=
    List.Nodup.map (candidate_injective base) List.nodup_range
  have within : (List.range (used.length + 1)).map (candidate base) ⊆ used := by
    intro name member
    obtain ⟨k, listed, rfl⟩ := List.mem_map.mp member
    exact taken k listed
  have bound := (List.subperm_of_subset distinct within).length_le
  simp only [List.length_map, List.length_range] at bound
  omega

theorem firstFree_not_mem (base : String) (used : List String) : firstFree base used ∉ used := by
  unfold firstFree
  split
  · rename_i k found
    simpa using List.find?_some found
  · rename_i absent
    obtain ⟨k, listed, free⟩ := exists_free base used
    have := List.find?_eq_none.mp absent k listed
    simp [free] at this

theorem freshVariable_not_mem (name : String) (used : List String) : freshVariable name used ∉ used :=
  firstFree_not_mem _ used

theorem exists_firstFree (base : String) (used : List String) : ∃ k, firstFree base used = candidate base k ∧
    candidate base k ∉ used ∧ ∀ j < k, candidate base j ∈ used := by
  unfold firstFree
  split
  · rename_i k found
    obtain ⟨free, _, before⟩ := List.find?_range_eq_some.mp found
    exact ⟨k, rfl, by simpa using free, fun j earlier => by simpa using before j earlier⟩
  · rename_i absent
    obtain ⟨k, listed, free⟩ := exists_free base used
    have := List.find?_eq_none.mp absent k listed
    simp [free] at this

theorem firstFree_eq_iff {base : String} {used : List String} {k : Nat} :
    firstFree base used = candidate base k ↔ candidate base k ∉ used ∧ ∀ j < k, candidate base j ∈ used := by
  obtain ⟨i, chosen, free, before⟩ := exists_firstFree base used
  rw [chosen, (candidate_injective base).eq_iff]
  constructor
  · rintro rfl
    exact ⟨free, before⟩
  · rintro ⟨open_, taken⟩
    rcases Nat.lt_trichotomy i k with earlier | same | later
    · exact absurd (taken i earlier) free
    · exact same
    · exact absurd (before k later) open_

theorem firstFree_append {base : String} {used more : List String} (apart : firstFree base used ∉ more) :
    firstFree base (used ++ more) = firstFree base used := by
  obtain ⟨k, chosen, free, before⟩ := exists_firstFree base used
  rw [chosen] at apart ⊢
  refine firstFree_eq_iff.mpr ⟨by simp [free, apart], fun j earlier => ?_⟩
  exact List.mem_append_left more (before j earlier)

/-! ## Fresh names in turn -/

theorem freshVariable_perm (name : String) {used used' : List String} (same : used.Perm used') :
    freshVariable name used = freshVariable name used' := by
  have listed (c : String) : used.contains c = used'.contains c := by simp [same.mem_iff]
  simp only [freshVariable, firstFree, same.length_eq, listed]

theorem freshVariables_append (front back used : List String) :
    freshVariables (front ++ back) used =
      ((freshVariables front used).1 ++ (freshVariables back (freshVariables front used).2).1,
        (freshVariables back (freshVariables front used).2).2) := by
  induction front generalizing used with
  | nil => rfl
  | cons name front ih => simp only [List.cons_append, freshVariables, ih]

theorem used_freshVariables (names used : List String) :
    (freshVariables names used).2 = (freshVariables names used).1.reverse ++ used := by
  induction names generalizing used with
  | nil => rfl
  | cons name names ih =>
    simp only [freshVariables, ih, List.reverse_cons, List.append_assoc, List.singleton_append]

theorem freshVariables_concat (names : List String) (name : String) :
    (freshVariables (names ++ [name]) []).1 =
      (freshVariables names []).1 ++ [freshVariable name (freshVariables names []).1] := by
  have used : (freshVariables names []).2.Perm (freshVariables names []).1 := by
    rw [used_freshVariables, List.append_nil]
    exact List.reverse_perm _
  rw [freshVariables_append]
  simp only [freshVariables, freshVariable_perm name used]

/-! ## Names given at once -/

theorem length_freshVariables (names used : List String) :
    (freshVariables names used).1.length = names.length := by
  induction names generalizing used with
  | nil => rfl
  | cons name names ih => simp [freshVariables, ih]

theorem nodup_freshVariables (names used : List String) : ((freshVariables names used).1 ++ used).Nodup ↔ used.Nodup := by
  induction names generalizing used with
  | nil => rfl
  | cons name names ih =>
    have fresh := freshVariable_not_mem name used
    have moved : ((freshVariables (name :: names) used).1 ++ used).Perm
        ((freshVariables names (freshVariable name used :: used)).1 ++ freshVariable name used :: used) :=
      List.perm_middle.symm
    rw [moved.nodup_iff, ih, List.nodup_cons, and_iff_right fresh]

theorem freshVariables_more_iff (names used more : List String) :
    (freshVariables names (used ++ more)).1 = (freshVariables names used).1 ↔
      ∀ given ∈ (freshVariables names used).1, given ∉ more := by
  induction names generalizing used with
  | nil => simp [freshVariables]
  | cons name names ih =>
    have others := ih (freshVariable name used :: used)
    simp only [freshVariables, List.cons.injEq, List.forall_mem_cons]
    constructor
    · rintro ⟨first, rest⟩
      have apart := freshVariable_not_mem name (used ++ more)
      rw [first] at apart rest
      exact ⟨fun member => apart (List.mem_append_right used member), others.mp rest⟩
    · rintro ⟨first, rest⟩
      have kept : freshVariable name (used ++ more) = freshVariable name used := firstFree_append first
      exact ⟨kept, kept ▸ others.mpr rest⟩

def variableBase (name : String) : String := String.ofList (lowerFirst (typeChars name.toList))

theorem getLast?_candidate (base : String) (k : Nat) :
    ∃ digit, (candidate base (k + 1)).toList.getLast? = some digit ∧ digit.isDigit = true := by
  have digits : (toString (k + 1)).toList ≠ [] := by
    simpa only [Nat.toString_eq_repr, Nat.toList_repr] using Nat.toDigits_ne_nil
  refine ⟨_, ?_, Nat.isDigit_of_mem_toDigits (b := 10) (n := k + 1) (by decide) (Nat.le_refl 10)
    (List.getLast_mem Nat.toDigits_ne_nil)⟩
  rw [candidate, String.toList_append, List.getLast?_append_of_ne_nil _ digits, Nat.toString_eq_repr, Nat.toList_repr]
  exact List.getLast?_eq_some_getLast Nat.toDigits_ne_nil

theorem mem_freshVariables_iff {names : List String} {word : String}
    (plain : ∀ last ∈ word.toList.getLast?, last.isDigit = false) :
    word ∈ (freshVariables names []).1 ↔ ∃ name ∈ names, variableBase name = word := by
  have unnumbered {base : String} {k : Nat} (same : candidate base k = word) : base = word := by
    cases k with
    | zero => exact same
    | succ k =>
      obtain ⟨digit, last, isDigit⟩ := getLast?_candidate base k
      rw [plain digit (same ▸ last)] at isDigit
      cases isDigit
  -- A word that does not end in a digit is given only as a base, and only while it is free.
  suffices each : ∀ used, word ∉ used →
      (word ∈ (freshVariables names used).1 ↔ ∃ name ∈ names, variableBase name = word) from each [] List.not_mem_nil
  induction names with
  | nil => simp [freshVariables]
  | cons name names ih =>
    intro used free
    have first : freshVariable name used = word ↔ variableBase name = word := by
      obtain ⟨k, chosen, _⟩ := exists_firstFree (variableBase name) used
      constructor
      · exact fun same => unnumbered (chosen.symm.trans same)
      · rintro rfl
        exact firstFree_eq_iff (k := 0).mpr ⟨free, nofun⟩
    rw [freshVariables, List.mem_cons, List.exists_mem_cons_iff, eq_comm, first]
    by_cases same : variableBase name = word
    · simp [same]
    · rw [ih _ (by simp [free, Ne.symm (mt first.mp same)])]

/-! ## Capital forms -/

open Text

def startRanges : List (Nat × Nat) := [(0x41, 0x5A), (0x5F, 0x5F), (0x61, 0x7A)]

/-- The characters that are no letters of ASCII and become such letters in capital form. -/
def wordCapitals : List Char := ['ß', 'ı', 'ſ', 'ﬀ', 'ﬁ', 'ﬂ', 'ﬃ', 'ﬄ', 'ﬅ', 'ﬆ']

theorem isStart_eq_inRanges (c : Char) : isStart c = inRanges startRanges c.toNat := by
  rw [Bool.eq_iff_iff]
  simp only [isStart, isAsciiLetter, Bool.or_eq_true, Bool.and_eq_true, decide_eq_true_eq, beq_iff_eq, inRanges,
    startRanges, List.any_cons, List.any_nil, Bool.or_false, Char.le_def, UInt32.le_iff_toNat_le, ← Char.toNat_inj]
  change (97 ≤ c.toNat ∧ c.toNat ≤ 122 ∨ 65 ≤ c.toNat ∧ c.toNat ≤ 90) ∨ c.toNat = 95 ↔ _
  omega

theorem isStart_shifted (c : Char) :
    isStart ((shifted capitalRuns c).getD c) = true ↔ isStart c = true ∨ c = 'ı' ∨ c = 'ſ' := by
  have runs : capitalRuns.all (fun run => run.avoids startRanges || (run.within startRanges ||
      (run.within [(0x131, 0x131)] || run.within [(0x17F, 0x17F)]))) = true := by decide
  constructor
  · intro start
    unfold shifted at start
    cases found : capitalRuns.find? (·.covers c.toNat) with
    | none => exact .inl (by simpa [found] using start)
    | some run =>
      have covered : run.covers c.toNat = true := by simpa using List.find?_some found
      have either := List.all_eq_true.mp runs run (List.mem_of_find?_eq_some found)
      simp only [Bool.or_eq_true] at either
      rcases either with avoids | letters | dotless | long
      · have apart := inRanges_shifted (by decide) covered avoids
        rw [found, Option.map_some, Option.getD_some, isStart_eq_inRanges, apart] at start
        cases start
      · exact .inl ((isStart_eq_inRanges c).trans (inRanges_of_covers letters covered))
      · have code := inRanges_of_covers dotless covered
        exact .inr (.inl (Char.toNat_inj.mp (by simpa [inRanges, Nat.le_antisymm_iff, and_comm] using code)))
      · have code := inRanges_of_covers long covered
        exact .inr (.inr (Char.toNat_inj.mp (by simpa [inRanges, Nat.le_antisymm_iff, and_comm] using code)))
  · rintro (start | rfl | rfl)
    · exact forall_isPart (p := fun c => isStart c = true → isStart ((shifted capitalRuns c).getD c) = true)
        (by decide) (isPart_of_isStart start) start
    · decide
    · decide

theorem isIdentifier_capital (c : Char) :
    isIdentifier (capital c) = true ↔ isStart c = true ∨ c ∈ wordCapitals := by
  have forms : longCapitals.all (fun entry => !isStart (Char.ofNat entry.1) &&
      isIdentifier entry.2.toList == wordCapitals.contains (Char.ofNat entry.1)) = true := by decide
  have long : wordCapitals.all (fun d => d == 'ı' || d == 'ſ' || (longCapitals.lookup d.toNat).isSome) = true := by
    decide
  have short : 'ı' ∈ wordCapitals ∧ 'ſ' ∈ wordCapitals := by decide
  unfold capital
  split
  · rename_i form found
    obtain ⟨before, after, split, _⟩ := List.lookup_eq_some_iff.mp found
    have listed : (c.toNat, form) ∈ longCapitals := by simp [split]
    have both := List.all_eq_true.mp forms _ listed
    simp only [Char.ofNat_toNat, Bool.and_eq_true, Bool.not_eq_true', beq_iff_eq] at both
    simp [both.1, both.2]
  · rename_i absent
    rw [isIdentifier_iff, isStart_shifted]
    constructor
    · rintro ⟨start | rfl | rfl, _⟩
      · exact .inl start
      · exact .inr short.1
      · exact .inr short.2
    · rintro (start | listed)
      · exact ⟨.inl start, by simp⟩
      · have single := List.all_eq_true.mp long c listed
        simp only [absent, Option.isSome_none, Bool.or_false, Bool.or_eq_true, beq_iff_eq] at single
        exact ⟨.inr single, by simp⟩

/-- A name that goes on like an identifier and begins like one, or with a character that does in capital form. -/
def Capitalizable (name : String) : Prop :=
  ∀ c rest, name.toList = c :: rest → (isStart c = true ∨ c ∈ wordCapitals) ∧ ∀ d ∈ rest, isPart d = true

theorem isIdentifier_memberName (name : String) :
    isIdentifier (memberName name).toList = true ↔ Capitalizable name := by
  unfold memberName Capitalizable
  cases shape : name.toList with
  | nil =>
    have empty : name.isEmpty = true := by simpa using shape
    rw [if_pos empty]
    exact iff_of_true (by decide) nofun
  | cons c rest =>
    have filled : name.isEmpty ≠ true := fun empty => by simp [String.isEmpty_iff.mp empty] at shape
    obtain ⟨first, others, form⟩ := List.exists_cons_of_ne_nil (capital_filled c).1
    have own := isIdentifier_capital c
    rw [form, isIdentifier_iff] at own
    rw [if_neg filled, String.toList_ofList, capitalized, form, List.cons_append, isIdentifier_iff]
    constructor
    · rintro ⟨start, parts⟩ _ _ same
      cases same
      exact ⟨own.mp ⟨start, fun d member => parts d (List.mem_append_left rest member)⟩,
        fun d member => parts d (List.mem_append_right others member)⟩
    · intro each
      obtain ⟨head, tail⟩ := each c rest rfl
      obtain ⟨start, parts⟩ := own.mpr head
      exact ⟨start, fun d member => (List.mem_append.mp member).elim (parts d) (tail d)⟩

end ProfileConnector.Identifier
