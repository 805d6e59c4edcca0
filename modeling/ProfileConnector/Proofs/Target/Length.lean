import ProfileConnector.Target.TypeScript

/-!
How long texts are. An expression is at least as long as each of the parts that it is put together
from, down to the paths of the leaves that it reads from the row.
-/

namespace ProfileConnector

namespace Layout

variable {n : Nat} {a b : String}

theorem le_append_left (b : String) (long : n ≤ a.length) : n ≤ (a ++ b).length := by
  rw [String.length_append]
  exact Nat.le_trans long (Nat.le_add_right _ _)

theorem le_append_right (a : String) (long : n ≤ b.length) : n ≤ (a ++ b).length := by
  rw [String.length_append]
  exact Nat.le_trans long (Nat.le_add_left _ _)

theorem le_intercalate {sep : String} {parts : List String} {part : String} (member : part ∈ parts)
    (long : n ≤ part.length) : n ≤ (sep.intercalate parts).length := by
  induction parts with
  | nil => cases member
  | cons first rest ih =>
    cases rest with
    | nil =>
      rw [String.intercalate_singleton]
      exact List.mem_singleton.mp member ▸ long
    | cons next others =>
      rw [String.intercalate_cons_cons]
      rcases List.mem_cons.mp member with rfl | later
      · exact le_append_left _ (le_append_left _ long)
      · exact le_append_right _ (ih later)

end Layout

namespace TypeScript

open Layout

variable {n : Nat}

/-! ## Reads -/

theorem escapePoint_ne_nil (point : CodePoint) : Text.escapePoint point ≠ [] := by
  cases point with
  | half unit => exact List.cons_ne_nil _ _
  | scalar c =>
    simp only [Text.escapePoint, Text.escapeChar, Text.unitEscape]
    repeat' split
    all_goals simp

theorem le_quote (s : String) : s.length ≤ (Text.quote s).length := by
  have longer (t : Text) : t.length ≤ (t.flatMap Text.escapePoint).length := by
    induction t with
    | nil => exact Nat.le_refl _
    | cons point rest ih =>
      have some := List.length_pos_iff.mpr (escapePoint_ne_nil point)
      rw [List.flatMap_cons, List.length_append, List.length_cons]
      omega
  have whole := longer (Text.ofString s)
  simp only [Text.ofString, Text.ofChars, List.length_map, String.length_toList] at whole
  rw [Text.quote, Text.quoteText, String.length_ofList, Text.quoteChars, List.length_cons, List.length_append]
  simp only [Text.ofString, Text.ofChars]
  omega

theorem le_validated {expression : String} (long : n ≤ expression.length) (type : PropertyType) (name : String)
    (limits : Constraints) : n ≤ (validated type name expression limits).length := by
  have checked (helper shown : String) :
      n ≤ (s!"{helper}({Text.quote name}, {expression}, \x7b {shown} \x7d)").length :=
    le_append_left _ (le_append_left _ (le_append_left _ (le_append_right _ long)))
  unfold validated
  simp only
  split
  · split
    · exact long
    · exact checked _ _
  · split
    · exact long
    · split
      · exact long
      · exact checked _ _

theorem le_defaulted {expression : String} (long : n ≤ expression.length) (isCollection : Bool)
    (fallback : Option String) : n ≤ (match fallback with
      | some fallback => withDefault isCollection expression fallback
      | none => expression).length := by
  cases fallback with
  | none => exact long
  | some fallback => exact le_append_left _ (le_append_left _ (le_append_left _ (le_append_right _ long)))

theorem le_many {read : LeafRead} {source : Source} {path : String} (row : read.origin = .row source)
    (given : source.jsonPath = some path) (pathed : source.hasPath = true) (long : n ≤ path.length) :
    n ≤ (many read).length := by
  have literal : sourceLiteral source = Text.quote path := by rw [sourceLiteral, pathed, given]
  have texts : n ≤ (readTexts (sourceLiteral source)).length := by
    rw [literal]
    exact le_append_left _ (le_append_right _ (Nat.le_trans long (le_quote path)))
  have defaulted := le_defaulted texts true read.fallback
  unfold many
  simp only [row]
  split
  · exact le_validated defaulted _ _ _
  · exact defaulted

/-! ## Blocks -/

theorem le_filled {read : String} (long : n ≤ read.length) (level : Nat) : n ≤ (filled read level).length :=
  le_intercalate (List.mem_cons_of_mem _ List.mem_cons_self) (le_append_left _ (le_append_right _ long))

theorem le_mapped {read : String} (long : n ≤ read.length) (body element : String) (level : Nat) :
    n ≤ (mapped read body element true level).length := by
  rw [mapped, if_pos rfl]
  exact le_intercalate (List.mem_cons_of_mem _ List.mem_cons_self) (le_append_left _ (le_append_right _ long))

theorem le_broadcast {reads : List (String × String)} {name read : String} (member : (name, read) ∈ reads)
    (long : n ≤ read.length) (body element : String) (absentIfEmpty : Bool) (level : Nat) :
    n ≤ (broadcast reads body element absentIfEmpty level).length := by
  rw [broadcast]
  exact le_intercalate (List.mem_append_left _ (List.mem_append_left _ (List.mem_append_left _
    (List.mem_append_right _ (List.mem_map.mpr ⟨(name, read), member, rfl⟩)))))
    (le_append_left _ (le_append_right _ long))

theorem le_objectLiteral {entries : List (String × String)} {key value : String} (member : (key, value) ∈ entries)
    (long : n ≤ value.length) (level : Nat) : n ≤ (objectLiteral entries level).length := by
  have some : entries.isEmpty = false := by
    cases entries with
    | nil => cases member
    | cons => rfl
  rw [objectLiteral, some]
  refine le_append_left _ (le_append_left _ (le_append_left _ (le_append_right _ ?_)))
  exact le_intercalate (List.mem_map.mpr ⟨_, member, rfl⟩) (le_append_right _ long)

theorem le_typedObject {entries : List (String × String)} {key value : String} (member : (key, value) ∈ entries)
    (long : n ≤ value.length) (typeName : String) (level : Nat) : n ≤ (typedObject typeName entries level).length :=
  le_append_left _ (le_append_left _ (le_append_left _ (le_append_right _ (le_objectLiteral member long level))))

end TypeScript

end ProfileConnector
