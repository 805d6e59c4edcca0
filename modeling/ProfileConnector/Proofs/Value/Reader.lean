import ProfileConnector.Proofs.Outcome
import ProfileConnector.Value.Reader

/-!
Reading values. Every reader leaves an end of the text that it is given, so lists and records are
nested too deep only in a text with more brackets than the limit, and fuel for the length of the text
is all that is ever used.
-/

namespace ProfileConnector.Value

open Outcome
open Text (isAsciiDigit)

/-! ## What is left -/

theorem literal_suffix {cs after : List Char} {t : Text} (done : literal cs = some (t, after)) : after <:+ cs := by
  rw [literal.eq_def] at done
  split at done
  · cases done
  · cases done
    exact List.suffix_cons _ _
  · rename_i a b c d rest
    obtain ⟨unit, _, remaining⟩ := Option.bind_eq_some_iff.mp done
    obtain ⟨⟨tail, left⟩, inner, joined⟩ := Option.bind_eq_some_iff.mp remaining
    have same : left = after := by
      dsimp only at joined
      split at joined
      · split at joined <;> cases joined <;> rfl
      · cases joined
        rfl
    exact same ▸ (literal_suffix inner).trans (List.suffix_append ['\\', 'u', a, b, c, d] rest)
  · rename_i escape rest _
    have inner : ∃ tail, literal rest = some (tail, after) := by
      dsimp only at done
      split at done
      case h_9 => cases done
      all_goals
        obtain ⟨_, _, remaining⟩ := Option.bind_eq_some_iff.mp done
        obtain ⟨⟨tail, left⟩, inner, joined⟩ := Option.bind_eq_some_iff.mp remaining
        cases joined
        exact ⟨tail, inner⟩
    obtain ⟨tail, inner⟩ := inner
    exact (literal_suffix inner).trans (List.suffix_append ['\\', escape] rest)
  · rename_i c rest _ _ _
    split at done
    · cases done
    · obtain ⟨⟨tail, left⟩, inner, joined⟩ := Option.bind_eq_some_iff.mp done
      cases joined
      exact (literal_suffix inner).trans (List.suffix_cons c rest)
termination_by cs.length

theorem afterWord_suffix {word : String} {cs after : List Char} (found : afterWord word cs = some after) :
    after <:+ cs := by
  unfold afterWord at found
  split at found <;> cases found
  exact List.drop_suffix word.length cs

theorem constant_suffix {value : Value} {cs after : List Char} (found : constant cs = some (value, after)) :
    after <:+ cs := by
  obtain ⟨⟨word, _⟩, _, spelled⟩ := List.exists_of_findSome?_eq_some found
  obtain ⟨left, word, same⟩ := Option.map_eq_some_iff.mp spelled
  cases same
  exact afterWord_suffix word

theorem wholeDigits_suffix {cs digits after : List Char} (found : wholeDigits cs = some (digits, after)) :
    after <:+ cs := by
  unfold wholeDigits at found
  split at found
  · cases found
    exact List.suffix_cons _ _
  · dsimp only at found
    split at found <;> cases found
    exact List.dropWhile_suffix isAsciiDigit

theorem fractionDigits_suffix (cs : List Char) : (fractionDigits cs).2 <:+ cs := by
  unfold fractionDigits
  split
  · dsimp only
    split
    · exact List.suffix_rfl
    · exact (List.dropWhile_suffix isAsciiDigit).trans (List.suffix_cons _ _)
  · exact List.suffix_rfl

theorem exponentDigits_suffix (cs : List Char) : (exponentDigits cs).2 <:+ cs := by
  unfold exponentDigits
  split
  · rename_i mark rest
    split
    · have shown (sign digits : List Char) (signed : digits <:+ rest) :
          (if (digits.takeWhile isAsciiDigit).isEmpty then ([], mark :: rest)
            else (mark :: sign ++ digits.takeWhile isAsciiDigit, digits.dropWhile isAsciiDigit)).2 <:+
            mark :: rest := by
        split
        · exact List.suffix_rfl
        · exact ((List.dropWhile_suffix isAsciiDigit).trans signed).trans (List.suffix_cons mark rest)
      dsimp only
      split
      · exact shown ['+'] _ (List.suffix_cons _ _)
      · exact shown ['-'] _ (List.suffix_cons _ _)
      · exact shown [] _ List.suffix_rfl
    · exact List.suffix_rfl
  · exact List.suffix_rfl

theorem number_suffix {value : Value} {cs after : List Char} (found : number cs = some (value, after)) :
    after <:+ cs := by
  unfold number at found
  dsimp only at found
  obtain ⟨⟨whole, rest⟩, digits, remaining⟩ := Option.bind_eq_some_iff.mp found
  have unsigned : rest <:+ cs := by
    refine (wholeDigits_suffix digits).trans ?_
    split
    · exact List.suffix_cons _ _
    · exact List.suffix_rfl
  have left : after = (exponentDigits (fractionDigits rest).2).2 := by
    dsimp only at remaining
    split at remaining
    all_goals
      obtain ⟨_, _, done⟩ := Option.bind_eq_some_iff.mp remaining
      cases done
      rfl
  exact left ▸ ((exponentDigits_suffix _).trans (fractionDigits_suffix rest)).trans unsigned

theorem skipGaps_suffix (cs : List Char) : skipGaps cs <:+ cs := List.dropWhile_suffix isGap

theorem rest_suffix {c : Char} {cs rest : List Char} (next : skipGaps cs = c :: rest) : rest <:+ cs :=
  (List.suffix_cons c rest).trans (next ▸ skipGaps_suffix cs)

def LeavesEnd {α : Type} (reader : Nat → List Char → Except ReadFault (α × List Char)) : Prop :=
  ∀ depth cs found after, reader depth cs = .ok (found, after) → after <:+ cs

theorem read_leavesEnd {fuel : Nat} (items : LeavesEnd (readItems fuel)) (members : LeavesEnd (readMembers fuel)) :
    LeavesEnd (read (fuel + 1)) := by
  intro depth cs value after done
  rw [read.eq_def] at done
  dsimp only at done
  split at done
  · rename_i rest
    split at done <;> cases done
    rename_i closed
    exact (literal_suffix closed).trans (List.suffix_cons '"' rest)
  · rename_i rest
    split at done
    · cases done
    · split at done
      · cases done
        rename_i next
        exact (rest_suffix next).trans (List.suffix_cons '[' rest)
      · obtain ⟨⟨listed, left⟩, inner, same⟩ := bind_eq_ok.mp done
        cases same
        exact ((items _ _ _ _ inner).trans (skipGaps_suffix rest)).trans (List.suffix_cons '[' rest)
  · rename_i rest
    split at done
    · cases done
    · split at done
      · cases done
        rename_i next
        exact (rest_suffix next).trans (List.suffix_cons '\x7b' rest)
      · obtain ⟨⟨listed, left⟩, inner, same⟩ := bind_eq_ok.mp done
        cases same
        exact ((members _ _ _ _ inner).trans (skipGaps_suffix rest)).trans (List.suffix_cons '\x7b' rest)
  · split at done <;> cases done
    rename_i found
    rw [Option.orElse_eq_orElse, Option.orElse_eq_or, Option.or_eq_some_iff] at found
    rcases found with word | ⟨_, digits⟩
    · exact constant_suffix word
    · exact number_suffix digits

theorem readItems_leavesEnd {fuel : Nat} (value : LeavesEnd (read fuel)) (items : LeavesEnd (readItems fuel)) :
    LeavesEnd (readItems (fuel + 1)) := by
  intro depth cs found after done
  rw [readItems.eq_def] at done
  obtain ⟨⟨item, left⟩, first, remaining⟩ := bind_eq_ok.mp done
  dsimp only at remaining
  have before := value _ _ _ _ first
  split at remaining
  · cases remaining
    rename_i next
    exact (rest_suffix next).trans before
  · rename_i rest next
    obtain ⟨⟨listed, left⟩, others, same⟩ := bind_eq_ok.mp remaining
    cases same
    exact (((items _ _ _ _ others).trans (skipGaps_suffix rest)).trans (rest_suffix next)).trans before
  · cases remaining

theorem readMembers_leavesEnd {fuel : Nat} (value : LeavesEnd (read fuel)) (members : LeavesEnd (readMembers fuel)) :
    LeavesEnd (readMembers (fuel + 1)) := by
  intro depth cs found after done
  rw [readMembers.eq_def] at done
  dsimp only at done
  split at done
  · rename_i rest
    split at done
    · rename_i key inside named
      split at done
      · rename_i own colon
        obtain ⟨⟨member, left⟩, first, remaining⟩ := bind_eq_ok.mp done
        dsimp only at remaining
        have before : left <:+ '"' :: rest := by
          have inner := ((value _ _ _ _ first).trans (skipGaps_suffix own)).trans (rest_suffix colon)
          exact (inner.trans (literal_suffix named)).trans (List.suffix_cons '"' rest)
        split at remaining
        · cases remaining
          rename_i next
          exact (rest_suffix next).trans before
        · rename_i others next
          obtain ⟨⟨listed, left⟩, later, same⟩ := bind_eq_ok.mp remaining
          cases same
          exact (((members _ _ _ _ later).trans (skipGaps_suffix others)).trans (rest_suffix next)).trans before
        · cases remaining
      · cases done
    · cases done
  · cases done

theorem leavesEnd (fuel : Nat) :
    LeavesEnd (read fuel) ∧ LeavesEnd (readItems fuel) ∧ LeavesEnd (readMembers fuel) := by
  induction fuel with
  | zero => exact ⟨nofun, nofun, nofun⟩
  | succ fuel ih =>
    obtain ⟨value, items, members⟩ := ih
    exact ⟨read_leavesEnd items members, readItems_leavesEnd value items, readMembers_leavesEnd value members⟩

/-! ## Nesting -/

def isOpening (c : Char) : Bool := c == '[' || c == '\x7b'

/-- How many brackets open lists and records, those inside of literals counted as well. -/
def openings (cs : List Char) : Nat := cs.countP isOpening

theorem openings_le {cs after : List Char} (left : after <:+ cs) : openings after ≤ openings cs :=
  left.sublist.countP_le

theorem openings_cons {c : Char} (opening : isOpening c = true) (cs : List Char) :
    openings (c :: cs) = openings cs + 1 :=
  List.countP_cons_of_pos opening

def Opens {α : Type} (reader : Nat → List Char → Except ReadFault (α × List Char)) : Prop :=
  ∀ depth cs, reader depth cs = .error .tooDeep → depth < openings cs

theorem read_opens {fuel : Nat} (items : Opens (readItems fuel)) (members : Opens (readMembers fuel)) :
    Opens (read (fuel + 1)) := by
  intro depth cs failed
  rw [read.eq_def] at failed
  dsimp only at failed
  split at failed
  · split at failed <;> cases failed
  · rename_i rest
    rw [openings_cons rfl]
    split at failed
    · exact Nat.succ_pos _
    · refine Nat.succ_lt_succ ?_
      split at failed
      · cases failed
      · rcases bind_eq_error.mp failed with inner | ⟨_, _, done⟩
        · exact Nat.lt_of_lt_of_le (items _ _ inner) (openings_le (skipGaps_suffix rest))
        · cases done
  · rename_i rest
    rw [openings_cons rfl]
    split at failed
    · exact Nat.succ_pos _
    · refine Nat.succ_lt_succ ?_
      split at failed
      · cases failed
      · rcases bind_eq_error.mp failed with inner | ⟨_, _, done⟩
        · exact Nat.lt_of_lt_of_le (members _ _ inner) (openings_le (skipGaps_suffix rest))
        · cases done
  · split at failed <;> cases failed

theorem readItems_opens {fuel : Nat} (value : Opens (read fuel)) (items : Opens (readItems fuel)) :
    Opens (readItems (fuel + 1)) := by
  intro depth cs failed
  rw [readItems.eq_def] at failed
  rcases bind_eq_error.mp failed with first | ⟨⟨item, left⟩, first, remaining⟩
  · exact value _ _ first
  · have before := (leavesEnd fuel).1 _ _ _ _ first
    dsimp only at remaining
    split at remaining
    · cases remaining
    · rename_i rest next
      rcases bind_eq_error.mp remaining with others | ⟨_, _, done⟩
      · have behind := ((skipGaps_suffix rest).trans (rest_suffix next)).trans before
        exact Nat.lt_of_lt_of_le (items _ _ others) (openings_le behind)
      · cases done
    · cases remaining

theorem readMembers_opens {fuel : Nat} (value : Opens (read fuel)) (members : Opens (readMembers fuel)) :
    Opens (readMembers (fuel + 1)) := by
  intro depth cs failed
  rw [readMembers.eq_def] at failed
  dsimp only at failed
  split at failed
  · rename_i rest
    split at failed
    · rename_i key inside named
      split at failed
      · rename_i own colon
        have here : skipGaps own <:+ '"' :: rest := by
          have inner := ((skipGaps_suffix own).trans (rest_suffix colon)).trans (literal_suffix named)
          exact inner.trans (List.suffix_cons '"' rest)
        -- Either the value is too deep or a member behind it; both are read from a rest of this text.
        rcases bind_eq_error.mp failed with first | ⟨⟨member, left⟩, first, remaining⟩
        · exact Nat.lt_of_lt_of_le (value _ _ first) (openings_le here)
        · have before := ((leavesEnd fuel).1 _ _ _ _ first).trans here
          dsimp only at remaining
          split at remaining
          · cases remaining
          · rename_i others next
            rcases bind_eq_error.mp remaining with later | ⟨_, _, done⟩
            · have behind := ((skipGaps_suffix others).trans (rest_suffix next)).trans before
              exact Nat.lt_of_lt_of_le (members _ _ later) (openings_le behind)
            · cases done
          · cases remaining
      · cases failed
    · cases failed
  · cases failed

theorem opens (fuel : Nat) : Opens (read fuel) ∧ Opens (readItems fuel) ∧ Opens (readMembers fuel) := by
  induction fuel with
  | zero => exact ⟨nofun, nofun, nofun⟩
  | succ fuel ih =>
    obtain ⟨value, items, members⟩ := ih
    exact ⟨read_opens items members, readItems_opens value items, readMembers_opens value members⟩

theorem nestingLimit_lt_openings {cs : List Char} (deep : ofChars? cs = .error .tooDeep) :
    nestingLimit < openings cs := by
  rcases bind_eq_error.mp deep with failed | ⟨_, _, remaining⟩
  · exact Nat.lt_of_lt_of_le ((opens _).1 _ _ failed) (openings_le (skipGaps_suffix cs))
  · dsimp only at remaining
    split at remaining <;> cases remaining

theorem read_replicate {fuel depth : Nat} (enough : 2 * depth < fuel) (rest : List Char) :
    read fuel depth (List.replicate (depth + 1) '[' ++ rest) = .error .tooDeep := by
  induction depth generalizing fuel with
  | zero =>
    obtain ⟨fuel, rfl⟩ := Nat.exists_eq_succ_of_ne_zero (Nat.ne_of_gt enough)
    simp [read]
  | succ depth ih =>
    obtain ⟨fuel, rfl⟩ : ∃ more, fuel = more + 2 := ⟨fuel - 2, by omega⟩
    have inner : read fuel depth (List.replicate (depth + 1) '[' ++ rest) = .error .tooDeep := ih (by omega)
    have gapless : skipGaps (List.replicate (depth + 1) '[' ++ rest) = List.replicate (depth + 1) '[' ++ rest := rfl
    rw [List.replicate_succ, List.cons_append] at inner gapless
    simp [List.replicate_succ, read, gapless, readItems, inner]

/-- One bracket more than the limit at the start of a text is too deep, whatever follows. -/
theorem ofChars?_replicate (rest : List Char) :
    ofChars? (List.replicate (nestingLimit + 1) '[' ++ rest) = .error .tooDeep := by
  have gapless : skipGaps (List.replicate (nestingLimit + 1) '[' ++ rest) =
      List.replicate (nestingLimit + 1) '[' ++ rest := rfl
  unfold ofChars?
  rw [gapless, read_replicate (by simp; omega) rest]
  rfl

/-! ## Fuel -/

/-- Fuel for twice the length of a text, and a little more, is enough: more of it changes nothing. -/
def Settles {α : Type} (reader : Nat → Nat → List Char → Except ReadFault (α × List Char)) (extra fuel : Nat) : Prop :=
  ∀ depth cs, 2 * cs.length + extra ≤ fuel → reader (fuel + 1) depth cs = reader fuel depth cs

theorem read_settles {fuel : Nat} (items : Settles readItems 2 fuel) (members : Settles readMembers 2 fuel) :
    Settles read 1 (fuel + 1) := by
  intro depth cs enough
  rw [read.eq_def, read.eq_def (fuel + 1)]
  dsimp only
  split
  · rfl
  · rename_i rest
    have short := (skipGaps_suffix rest).length_le
    rw [List.length_cons] at enough
    split
    · rfl
    · split
      · rfl
      · rw [items _ _ (by omega)]
  · rename_i rest
    have short := (skipGaps_suffix rest).length_le
    rw [List.length_cons] at enough
    split
    · rfl
    · split
      · rfl
      · rw [members _ _ (by omega)]
  · rfl

theorem length_rest_lt {c : Char} {cs rest : List Char} (next : skipGaps cs = c :: rest) : rest.length < cs.length := by
  have left := (skipGaps_suffix cs).length_le
  rwa [next] at left

theorem readItems_settles {fuel : Nat} (value : Settles read 1 fuel) (items : Settles readItems 2 fuel) :
    Settles readItems 2 (fuel + 1) := by
  intro depth cs enough
  rw [readItems.eq_def, readItems.eq_def (fuel + 1)]
  dsimp only
  rw [value _ _ (by omega)]
  cases first : read fuel depth cs with
  | error fault => rfl
  | ok found =>
    obtain ⟨item, after⟩ := found
    have before := ((leavesEnd _).1 _ _ _ _ first).length_le
    dsimp only [ok_bind]
    split
    · rfl
    · rename_i rest next
      have short := (skipGaps_suffix rest).length_le
      have shorter := length_rest_lt next
      rw [items _ _ (by omega)]
    · rfl

theorem readMembers_settles {fuel : Nat} (value : Settles read 1 fuel) (members : Settles readMembers 2 fuel) :
    Settles readMembers 2 (fuel + 1) := by
  intro depth cs enough
  rw [readMembers.eq_def, readMembers.eq_def (fuel + 1)]
  dsimp only
  split
  · rename_i rest
    rw [List.length_cons] at enough
    split
    · rename_i key inside named
      -- Each part is read from a shorter text, with fuel for the difference.
      have key := (literal_suffix named).length_le
      split
      · rename_i own colon
        have below := length_rest_lt colon
        have gaps := (skipGaps_suffix own).length_le
        rw [value _ _ (by omega)]
        cases first : read fuel depth (skipGaps own) with
        | error fault => rfl
        | ok found =>
          obtain ⟨member, after⟩ := found
          have before := ((leavesEnd _).1 _ _ _ _ first).length_le
          dsimp only [ok_bind]
          split
          · rfl
          · rename_i others next
            have short := (skipGaps_suffix others).length_le
            have shorter := length_rest_lt next
            rw [members _ _ (by omega)]
          · rfl
      · rfl
    · rfl
  · rfl

theorem settles (fuel : Nat) : Settles read 1 fuel ∧ Settles readItems 2 fuel ∧ Settles readMembers 2 fuel := by
  induction fuel with
  | zero => exact ⟨fun _ _ _ => by omega, fun _ _ _ => by omega, fun _ _ _ => by omega⟩
  | succ fuel ih =>
    obtain ⟨value, items, members⟩ := ih
    exact ⟨read_settles items members, readItems_settles value items, readMembers_settles value members⟩

theorem read_fuel (fuel depth : Nat) {cs : List Char} (enough : 2 * cs.length + 1 ≤ fuel) :
    read fuel depth cs = read (2 * cs.length + 1) depth cs := by
  obtain ⟨more, rfl⟩ := Nat.exists_eq_add_of_le enough
  clear enough
  induction more with
  | zero => rfl
  | succ more ih => exact ((settles (2 * cs.length + 1 + more)).1 depth cs (by omega)).trans ih

/-- Any fuel beyond twice the length of a text reads the same value from it. -/
theorem ofChars?_eq {fuel : Nat} {cs : List Char} (enough : 2 * cs.length < fuel) :
    ofChars? cs = (read fuel nestingLimit (skipGaps cs) >>= fun (value, after) =>
      if (skipGaps after).isEmpty then pure value else .error .malformed) := by
  have short := (skipGaps_suffix cs).length_le
  rw [ofChars?, read_fuel (2 * cs.length + 1) _ (by omega), read_fuel fuel _ (by omega)]

end ProfileConnector.Value
