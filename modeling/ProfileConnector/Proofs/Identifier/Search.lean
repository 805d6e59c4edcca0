import ProfileConnector.Proofs.Identifier
import ProfileConnector.Proofs.Text.Trimmed

/-!
The search for a variable name. Its candidates are identifiers, for a type name is one and stays one with a
small first letter or a number behind it. The search goes from one taken candidate to the next and ends at
the first free one; names that are searched for in turn are in use for those that follow.
-/

namespace ProfileConnector.Identifier

/-! ## Type names of type names -/

theorem words_eq_singleton (separates : Char → Bool) {c : Char} {rest : List Char}
    (word : ∀ d ∈ c :: rest, separates d = false) : words separates (c :: rest) = [c :: rest] := by
  induction rest generalizing c with
  | nil => simp [words, word c List.mem_cons_self]
  | cons next rest ih =>
    have others := ih fun d later => word d (List.mem_cons_of_mem c later)
    unfold words
    simp only [others, word c List.mem_cons_self, word next (List.mem_cons_of_mem c List.mem_cons_self),
      Bool.false_eq_true, if_false]

theorem toUpper_head {name rest : List Char} {c : Char}
    (joined : (words (fun c => !isAsciiWordChar c) name).flatMap upperFirst = c :: rest) : c.toUpper = c := by
  have letters : ∀ word ∈ words (fun c => !isAsciiWordChar c) name, ∀ d ∈ word, isAsciiWordChar d = true :=
    fun word inside d listed => by simpa using separates_of_mem_words inside d listed
  generalize words (fun c => !isAsciiWordChar c) name = parts at joined letters
  induction parts with
  | nil => cases joined
  | cons word parts ih =>
    cases word with
    | nil => exact ih joined fun word inside => letters word (List.mem_cons_of_mem _ inside)
    | cons first others =>
      obtain ⟨rfl, -⟩ := List.cons.inj joined
      exact toUpper_toUpper (letters _ List.mem_cons_self first List.mem_cons_self)

theorem typeChars_form (name : List Char) : ∃ c rest, (∀ d ∈ c :: rest, isAsciiWordChar d = true) ∧ c.toUpper = c ∧
    typeChars name = if isStart c then c :: rest else '_' :: c :: rest := by
  unfold typeChars
  split
  · exact ⟨'I', "tem".toList, List.all_eq_true.mp (by decide), rfl, rfl⟩
  · rename_i c rest joined
    exact ⟨c, rest, fun d inside => isAsciiWordChar_of_mem (joined ▸ inside), toUpper_head joined, rfl⟩

theorem typeChars_word {c : Char} {rest : List Char} (word : ∀ d ∈ c :: rest, isAsciiWordChar d = true)
    (capital : c.toUpper = c) : typeChars (c :: rest) = if isStart c then c :: rest else '_' :: c :: rest := by
  have parts := words_eq_singleton (fun c => !isAsciiWordChar c) fun d inside => by simpa using word d inside
  rw [typeChars, parts]
  simp only [List.flatMap_cons, List.flatMap_nil, List.append_nil, upperFirst, capital]

theorem typeChars_underscore (name : List Char) : typeChars ('_' :: name) = typeChars name := by
  have skipped : words (fun c => !isAsciiWordChar c) ('_' :: name) = words (fun c => !isAsciiWordChar c) name := rfl
  rw [typeChars, skipped, typeChars]

theorem typeName_typeName (name : String) : typeName (typeName name) = typeName name := by
  obtain ⟨c, rest, word, capital, form⟩ := typeChars_form name.toList
  have again := typeChars_word word capital
  rw [typeName, typeName, String.toList_ofList, form]
  split
  · rename_i start
    rw [again, if_pos start]
  · rename_i digit
    rw [typeChars_underscore, again, if_neg digit]

/-! ## Candidates -/

theorem isIdentifier_variableBase (name : String) : isIdentifier (variableBase name).toList = true := by
  have own := isIdentifier_typeChars name.toList
  rw [variableBase, String.toList_ofList]
  cases shape : typeChars name.toList with
  | nil => simp [shape, isIdentifier] at own
  | cons c rest =>
    rw [shape, isIdentifier_iff] at own
    exact isIdentifier_iff.mpr ⟨isStart_toLower own.1, own.2⟩

theorem isIdentifier_candidate {base : String} (own : isIdentifier base.toList = true) (k : Nat) :
    isIdentifier (candidate base k).toList = true := by
  cases k with
  | zero => exact own
  | succ k =>
    have filled : base.toList ≠ [] := fun empty => by simp [empty, isIdentifier] at own
    rw [candidate, String.toList_append, Nat.toString_eq_repr,
      isIdentifier_append filled fun c digit => Text.isPart_of_mem_repr digit]
    exact own

/-! ## The search -/

/-- The search from the `k`th candidate on: it ends at a free one and goes on behind a taken one. -/
inductive Search (base : String) (used : List String) : Nat → String → Prop
  | free {k : Nat} (open_ : candidate base k ∉ used) : Search base used k (candidate base k)
  | taken {k : Nat} {found : String} (closed : candidate base k ∈ used) (rest : Search base used (k + 1) found) :
      Search base used k found

namespace Search

variable {base found : String} {used : List String} {k : Nat}

theorem unique {other : String} (first : Search base used k found) (second : Search base used k other) :
    found = other := by
  induction first with
  | free open_ =>
    cases second with
    | free => rfl
    | taken closed => exact absurd closed open_
  | taken closed _ ih =>
    cases second with
    | free open_ => exact absurd closed open_
    | taken _ rest => exact ih rest

theorem not_mem (search : Search base used k found) : found ∉ used := by
  induction search with
  | free open_ => exact open_
  | taken _ _ ih => exact ih

theorem isIdentifier (search : Search base used k found) (own : isIdentifier base.toList = true) :
    isIdentifier found.toList = true := by
  induction search with
  | free => exact isIdentifier_candidate own _
  | taken _ _ ih => exact ih

theorem of_free {last : Nat} (free : candidate base last ∉ used) (before : ∀ j < last, candidate base j ∈ used)
    (reached : k ≤ last) : Search base used k (candidate base last) := by
  induction reached using Nat.decreasingInduction with
  | self => exact .free free
  | of_succ j earlier ih => exact .taken (before j earlier) ih

theorem iff_firstFree : Search base used 0 found ↔ found = firstFree base used := by
  obtain ⟨last, chosen, free, before⟩ := exists_firstFree base used
  have search : Search base used 0 (firstFree base used) := chosen ▸ of_free free before (Nat.zero_le last)
  exact ⟨fun other => other.unique search, fun same => same ▸ search⟩

end Search

/-- Names that are searched for in turn, from the names in use to those then in use. -/
inductive Given : List String → List String → List String → List String → Prop
  | nil {used : List String} : Given [] used [] used
  | cons {name found : String} {names used given final : List String} (search : Search (variableBase name) used 0 found)
      (rest : Given names (found :: used) given final) : Given (name :: names) used (found :: given) final

namespace Given

variable {names used given final : List String}

theorem iff_freshVariables : Given names used given final ↔ freshVariables names used = (given, final) := by
  induction names generalizing used given final with
  | nil =>
    rw [freshVariables, Prod.mk.injEq]
    constructor
    · rintro ⟨⟩
      exact ⟨rfl, rfl⟩
    · rintro ⟨rfl, rfl⟩
      exact .nil
  | cons name names ih =>
    rw [freshVariables, Prod.mk.injEq]
    constructor
    · rintro (_ | ⟨search, rest⟩)
      obtain rfl := Search.iff_firstFree.mp search
      rw [freshVariable, ← variableBase, ih.mp rest]
      exact ⟨rfl, rfl⟩
    · rintro ⟨rfl, rfl⟩
      exact .cons (Search.iff_firstFree.mpr rfl) (ih.mpr rfl)

theorem apart (turn : Given names used given final) :
    given.Nodup ∧ (∀ found ∈ given, found ∉ used) ∧ ∀ name, name ∈ final ↔ name ∈ used ∨ name ∈ given := by
  induction turn with
  | nil => simp
  | @cons name found names used given final search rest ih =>
    obtain ⟨distinct, apart, total⟩ := ih
    have fresh : found ∉ given := fun again => apart found again List.mem_cons_self
    have others : ∀ name ∈ given, name ∉ used := fun name member own => apart name member (List.mem_cons_of_mem found own)
    refine ⟨List.nodup_cons.mpr ⟨fresh, distinct⟩, List.forall_mem_cons.mpr ⟨search.not_mem, others⟩, fun name => ?_⟩
    rw [total, List.mem_cons, List.mem_cons, or_left_comm, or_assoc]

theorem isIdentifier (turn : Given names used given final) :
    given.length = names.length ∧ ∀ found ∈ given, isIdentifier found.toList = true := by
  induction turn with
  | nil => simp
  | @cons name _ _ _ _ _ search _ ih =>
    have own := search.isIdentifier (isIdentifier_variableBase name)
    exact ⟨congrArg (· + 1) ih.1, List.forall_mem_cons.mpr ⟨own, ih.2⟩⟩

end Given

/--
A type name is an identifier and its own type name. Whatever names are in use, the searches for a list of
names all end, in one way only; they find distinct identifiers that were not in use, one for each name, and
these are all that is in use besides.
-/
theorem given_freshVariables (names used : List String) :
    (∀ name, isIdentifier (typeName name).toList = true ∧ typeName (typeName name) = typeName name) ∧
      ∃ given final, freshVariables names used = (given, final) ∧
        (∀ given' final', Given names used given' final' ↔ given' = given ∧ final' = final) ∧
        given.length = names.length ∧ (∀ found ∈ given, isIdentifier found.toList = true ∧ found ∉ used) ∧ given.Nodup ∧
        ∀ name, name ∈ final ↔ name ∈ used ∨ name ∈ given := by
  constructor
  · intro name
    have own := isIdentifier_typeChars name.toList
    exact ⟨by rw [typeName, String.toList_ofList, own], typeName_typeName name⟩
  · have turn : Given names used (freshVariables names used).1 (freshVariables names used).2 :=
      Given.iff_freshVariables.mpr rfl
    obtain ⟨distinct, apart, total⟩ := turn.apart
    obtain ⟨length, identifiers⟩ := turn.isIdentifier
    refine ⟨_, _, rfl, fun given' final' => ?_, length, ?_, distinct, total⟩
    · rw [Given.iff_freshVariables, Prod.ext_iff, eq_comm, @eq_comm _ final']
    · exact fun found member => ⟨identifiers found member, apart found member⟩

end ProfileConnector.Identifier
