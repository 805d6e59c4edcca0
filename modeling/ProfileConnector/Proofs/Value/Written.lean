import Mathlib.Data.List.Infix
import ProfileConnector.Proofs.Number.Written
import ProfileConnector.Proofs.Text.Inner
import ProfileConnector.Proofs.Value.Pruned

/-!
The text of values. Outside its literals a compact text has a colon behind each key and nowhere else, and of
all values only null starts with the letter n. So a null member is seen in the text, and the text of a pruned
value has none.
-/

namespace ProfileConnector

namespace Text

/-! ## Text outside of literals -/

/-- The text without what its literals hold: of a literal, only the mark that opens it is left. -/
def outside : Bool → List Char → List Char
  | _, [] => []
  | false, c :: rest => c :: outside (c == '"') rest
  | true, '\\' :: _ :: rest => outside true rest
  | true, c :: rest => outside (c != '"') rest

example : outside false "[\"a\\\":null\",null]".toList = "[\",null]".toList := by decide

theorem outside_cons {c : Char} (unquoted : c ≠ '"') (rest : List Char) :
    outside false (c :: rest) = c :: outside false rest := by
  rw [outside, beq_eq_false_iff_ne.mpr unquoted]

theorem outside_inner {cs : List Char} (inner : Inner '"' cs) (rest : List Char) :
    outside true (cs ++ rest) = outside true rest := by
  induction inner with
  | nil => rfl
  | plain other unescaped _ ih =>
    rw [List.cons_append, outside, bne_iff_ne.mpr other, ih]
    exact fun _ _ same _ => unescaped same
  | escape _ ih => exact ih

theorem outside_quoteChars (t : Text) (rest : List Char) :
    outside false (quoteChars t ++ rest) = '"' :: outside false rest := by
  have inner : Inner '"' (t.flatMap escapePoint) := .flatMap .escapePoint t
  rw [quoteChars, List.cons_append, List.append_assoc, outside, BEq.rfl, outside_inner inner]
  rfl

def Closed (cs : List Char) : Prop := ∀ rest, outside false (cs ++ rest) = outside false cs ++ outside false rest

theorem Closed.append {first second : List Char} (closed : Closed first) (others : Closed second) :
    Closed (first ++ second) := by
  intro rest
  rw [List.append_assoc, closed, others, closed, List.append_assoc]

theorem outside_plain {cs : List Char} (unquoted : '"' ∉ cs) (rest : List Char) :
    outside false (cs ++ rest) = cs ++ outside false rest := by
  induction cs with
  | nil => rfl
  | cons c cs ih =>
    obtain ⟨other, others⟩ := not_or.mp (mt List.mem_cons.mpr unquoted)
    rw [List.cons_append, outside_cons (Ne.symm other), ih others, List.cons_append]

theorem outside_eq_self {cs : List Char} (unquoted : '"' ∉ cs) : outside false cs = cs := by
  simpa [outside] using outside_plain unquoted []

theorem closed_plain {cs : List Char} (unquoted : '"' ∉ cs) : Closed cs := by
  intro rest
  rw [outside_plain unquoted, outside_eq_self unquoted]

theorem closed_quoteChars (t : Text) : Closed (quoteChars t) := by
  intro rest
  have alone := outside_quoteChars t []
  rw [List.append_nil] at alone
  rw [outside_quoteChars, alone]
  rfl

/-! ## Parts with a separator -/

theorem infix_around {α : Type} (front : List α) {pattern back : List α} {c : α} (foreign : c ∉ pattern) :
    pattern <:+: front ++ c :: back ↔ pattern <:+: front ∨ pattern <:+: back := by
  have none {part : List α} (inside : part ⊆ pattern) (starts : part <+: c :: back) : part = [] := by
    rcases List.prefix_cons_iff.mp starts with empty | ⟨rest, rfl, -⟩
    · exact empty
    · exact absurd (inside List.mem_cons_self) foreign
  rw [List.infix_append_iff, List.infix_cons_iff]
  constructor
  · rintro (own | (starts | later) | ⟨first, second, rfl, ends, starts⟩)
    · exact .inl own
    · rw [none (List.Subset.refl _) starts]
      exact .inl List.nil_infix
    · exact .inr later
    · rw [none (List.subset_append_right first second) starts, List.append_nil]
      exact .inl ends.isInfix
  · exact Or.imp_right fun later => .inl (.inr later)

theorem closed_intercalate {parts : List String} (closed : ∀ part ∈ parts, Closed part.toList) :
    Closed (",".intercalate parts).toList := by
  induction parts with
  | nil => exact closed_plain (by decide)
  | cons part rest ih =>
    have own := closed part List.mem_cons_self
    have others := ih fun other later => closed other (List.mem_cons_of_mem part later)
    cases rest with
    | nil => rwa [String.intercalate_singleton]
    | cons next further =>
      rw [String.intercalate_cons_cons, String.toList_append, String.toList_append]
      exact (own.append (closed_plain (by decide))).append others

theorem infix_intercalate {pattern : List Char} (some : pattern ≠ []) (foreign : ',' ∉ pattern) {parts : List String}
    (closed : ∀ part ∈ parts, Closed part.toList) : pattern <:+: outside false (",".intercalate parts).toList ↔
      ∃ part ∈ parts, pattern <:+: outside false part.toList := by
  induction parts with
  | nil => simpa [outside] using some
  | cons part rest ih =>
    have own := closed part List.mem_cons_self
    rw [List.exists_mem_cons_iff, ← ih fun other later => closed other (List.mem_cons_of_mem part later)]
    cases rest with
    | nil => simp [String.intercalate_singleton, outside, some]
    | cons next further =>
      rw [String.intercalate_cons_cons, String.toList_append, String.toList_append, List.append_assoc, own]
      exact infix_around _ foreign

end Text

namespace Value

open Text

/-! ## Values -/

def code (value : Value) : List Char := outside false (write compact value).toList

def nullMember : List Char := ":null".toList

/-- What is seen of a value in its text: whether it is null, and whether it has a null member. -/
structure Shown (value : Value) : Prop where
  closed : Closed (write compact value).toList
  isNull : "null".toList <+: code value ↔ value = .null
  members : nullMember <:+: code value ↔ ¬ NullFree value

theorem nullFree_plain {value : Value} (noList : ∀ items, value ≠ .list items)
    (noRecord : ∀ members, value ≠ .record members) : NullFree value := by
  rintro members (_ | _ | _)
  · exact absurd rfl (noRecord members)
  · exact absurd rfl (noList _)
  · exact absurd rfl (noRecord _)

def Bare (cs : List Char) : Prop := '"' ∉ cs ∧ ':' ∉ cs ∧ cs.head? ≠ some 'n'

instance (cs : List Char) : Decidable (Bare cs) := instDecidableAnd

theorem bare_numeral {cs : List Char} (numeral : Numeral cs) : Bare cs :=
  ⟨numeral.not_mem (by decide), numeral.not_mem (by decide),
    fun first => numeral.not_mem (by decide) (List.mem_of_head? first)⟩

theorem Bare.shown {value : Value} (bare : Bare (write compact value).toList) (free : NullFree value)
    (some : value ≠ .null) : Shown value := by
  obtain ⟨unquoted, noColon, first⟩ := bare
  have own : code value = (write compact value).toList := outside_eq_self unquoted
  refine ⟨closed_plain unquoted, ?_, ?_⟩
  · rw [own]
    refine iff_of_false (fun ⟨rest, starts⟩ => ?_) some
    rw [← starts] at first
    exact first rfl
  · rw [own]
    exact iff_of_false (fun inside => noColon (inside.subset (by decide))) (not_not.mpr free)

theorem writeItems_eq (separators : Separators) (items : List Value) :
    writeItems separators items = items.map (write separators) := by
  induction items with
  | nil => rfl
  | cons item items ih => rw [writeItems, ih, List.map_cons]

theorem writeMembers_eq (separators : Separators) (members : List (Text × Value)) : writeMembers separators members =
    members.map fun member => quoteText member.1 ++ separators.key ++ write separators member.2 := by
  induction members with
  | nil => rfl
  | cons member members ih => rw [writeMembers, ih, List.map_cons]

theorem shown_member {key : Text} {value : Value} (shown : Shown value) :
    Closed (quoteText key ++ compact.key ++ write compact value).toList ∧
      (nullMember <:+: outside false (quoteText key ++ compact.key ++ write compact value).toList ↔
        value = .null ∨ ¬ NullFree value) := by
  have spelled : (quoteText key ++ compact.key ++ write compact value).toList =
      quoteChars key ++ ([':'] ++ (write compact value).toList) := by
    simp [quoteText, compact]
  have colon : Closed [':'] := closed_plain (by decide)
  have own : outside false (quoteChars key ++ ([':'] ++ (write compact value).toList)) = '"' :: ':' :: code value := by
    rw [outside_quoteChars, colon]
    rfl
  rw [spelled]
  refine ⟨(closed_quoteChars key).append (colon.append shown.closed), ?_⟩
  have start : nullMember <+: ':' :: code value ↔ "null".toList <+: code value :=
    List.cons_prefix_cons.trans (and_iff_right rfl)
  rw [own, ← shown.isNull, ← shown.members, ← start, ← List.infix_cons_iff]
  exact (infix_around [] (by decide)).trans (or_iff_right (by decide))

theorem shown_enclosed {value : Value} {opens closes : Char} {parts : List String}
    (spelled : (write compact value).toList = opens :: ((",".intercalate parts).toList ++ [closes]))
    (plain : opens ∉ '"' :: 'n' :: nullMember) (other : closes ∉ '"' :: nullMember) (some : value ≠ .null)
    (closed : ∀ part ∈ parts, Closed part.toList)
    (members : (∃ part ∈ parts, nullMember <:+: outside false part.toList) ↔ ¬ NullFree value) : Shown value := by
  simp only [List.mem_cons, not_or] at plain other
  obtain ⟨unquoted, noStart, foreign⟩ := plain
  -- The brackets close a list or record off, so only the code of its items and members can show a null.
  have inner := closed_intercalate closed
  have last : outside false [closes] = [closes] := outside_eq_self (by simpa using Ne.symm other.1)
  have own : code value = opens :: (outside false (",".intercalate parts).toList ++ [closes]) := by
    rw [code, spelled, outside_cons unquoted, inner, last]
  refine ⟨?_, ?_, ?_⟩
  · rw [spelled, ← List.singleton_append]
    exact (closed_plain (by simpa using Ne.symm unquoted)).append
      (inner.append (closed_plain (by simpa using Ne.symm other.1)))
  · rw [own]
    exact iff_of_false (fun starts => noStart (List.cons_prefix_cons.mp starts).1.symm) some
  · have nothing : ¬ nullMember <:+: [] := by decide
    rw [own, ← members, ← infix_intercalate (by decide) (by decide) closed]
    exact (infix_around [] foreign).trans ((or_iff_right nothing).trans
      ((infix_around _ other.2).trans (or_iff_left nothing)))

theorem shown_float (x : Binary64) : Shown (.float x) := by
  have bare : Bare (floatText x).toList := by
    rw [floatText]
    rcases Binary64.numeral_textWith "NaN" "Infinity" x with numeral | word | word | word
    · exact bare_numeral numeral
    all_goals
      rw [word]
      decide
  exact Bare.shown bare (nullFree_plain nofun nofun) nofun

theorem shown_text (t : Text) : Shown (.text t) := by
  have spelled : (write compact (.text t)).toList = quoteChars t := String.toList_ofList
  have own : code (.text t) = ['"'] := by
    rw [code, spelled, ← List.append_nil (quoteChars t), outside_quoteChars]
    rfl
  refine ⟨spelled ▸ closed_quoteChars t, ?_, ?_⟩
  · rw [own]
    exact iff_of_false (by decide) nofun
  · rw [own]
    exact iff_of_false (by decide) (not_not.mpr (nullFree_plain nofun nofun))

theorem shown_list {items : List Value} (each : ∀ item ∈ items, Shown item) : Shown (.list items) := by
  have spelled : (write compact (.list items)).toList =
      '[' :: ((",".intercalate (items.map (write compact))).toList ++ [']']) := by
    rw [write, writeItems_eq]
    simp [compact]
  refine shown_enclosed spelled (by decide) (by decide) nofun ?_ ?_
  · exact List.forall_mem_map.mpr fun item inside => (each item inside).closed
  · simp only [List.mem_map, exists_exists_and_eq_and, nullFree_list]
    push Not
    exact exists_congr fun item => and_congr_right fun inside => (each item inside).members

theorem shown_record {members : List (Text × Value)} (each : ∀ member ∈ members, Shown member.2) :
    Shown (.record members) := by
  have spelled : (write compact (.record members)).toList = '\x7b' :: ((",".intercalate
      (members.map fun member => quoteText member.1 ++ compact.key ++ write compact member.2)).toList ++ ['\x7d']) := by
    rw [write, writeMembers_eq]
    simp [compact]
  refine shown_enclosed spelled (by decide) (by decide) nofun ?_ ?_
  · exact List.forall_mem_map.mpr fun member inside => (shown_member (each member inside)).1
  · simp only [List.mem_map, exists_exists_and_eq_and, nullFree_record]
    push Not
    exact exists_congr fun member => and_congr_right fun inside =>
      (shown_member (each member inside)).2.trans or_iff_not_imp_left

theorem shown (value : Value) : Shown value := by
  induction value using induct with
  | null =>
    refine ⟨closed_plain (by decide), iff_of_true (by decide) rfl, iff_of_false (by decide) ?_⟩
    exact not_not.mpr (nullFree_plain nofun nofun)
  | bool b => cases b <;> exact Bare.shown (by decide) (nullFree_plain nofun nofun) nofun
  | int n => exact Bare.shown (bare_numeral (Numeral.int n)) (nullFree_plain nofun nofun) nofun
  | float x => exact shown_float x
  | text t => exact shown_text t
  | list items ih => exact shown_list ih
  | record members ih => exact shown_record ih

/-- Null members are seen in a text, and nothing else looks like one. -/
theorem null_written_iff (value : Value) :
    nullMember <:+: outside false (write compact value).toList ↔ ¬ NullFree value :=
  (shown value).members

/--
A pruned value has no null members; its lists have the pruned items of the lists before, and its records the
pruned members of the records before that were not null. Just the values without null members are left as
they are, pruned ones among them, and no null member stands in the text of a pruned value.
-/
theorem pruned_exact (value : Value) :
    NullFree value.pruned ∧ (∀ items, pruned (.list items) = .list (items.map pruned)) ∧
      (∀ members, pruned (.record members) =
        .record ((members.filter fun member => !member.2.isNull).map fun member => (member.1, member.2.pruned))) ∧
      (value.pruned = value ↔ NullFree value) ∧ value.pruned.pruned = value.pruned ∧
      ¬ ":null".toList <:+: outside false value.toJson.toList :=
  ⟨nullFree_pruned value, pruned_list, pruned_record, pruned_eq_self_iff, pruned_pruned value,
    fun seen => (null_written_iff value.pruned).mp seen (nullFree_pruned value)⟩

end Value

end ProfileConnector
