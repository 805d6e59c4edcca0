import ProfileConnector.Text.Spelled

/-!
What stands within literals. Both ways of writing a text in quotes only put characters between them that
are no quote and no backslash, and pairs of a backslash and another character; so whoever skips such pairs
finds the end of the literal.
-/

namespace ProfileConnector.Text

/-- Characters that do not end a literal in the quotes, in which a backslash escapes the next character. -/
inductive Inner (quote : Char) : List Char → Prop
  | nil : Inner quote []
  | plain {c : Char} {rest : List Char} (other : c ≠ quote) (unescaped : c ≠ '\\') (inner : Inner quote rest) :
      Inner quote (c :: rest)
  | escape {c : Char} {rest : List Char} (inner : Inner quote rest) : Inner quote ('\\' :: c :: rest)

namespace Inner

variable {quote : Char}

theorem append {first second : List Char} (inner : Inner quote first) (others : Inner quote second) :
    Inner quote (first ++ second) := by
  induction inner with
  | nil => exact others
  | plain other unescaped _ ih => exact .plain other unescaped ih
  | escape _ ih => exact .escape ih

theorem flatMap {α : Type} {f : α → List Char} (each : ∀ a, Inner quote (f a)) (items : List α) :
    Inner quote (items.flatMap f) := by
  induction items with
  | nil => exact .nil
  | cons first rest ih => exact List.flatMap_cons ▸ (each first).append ih

theorem hexDigits (known : quote = '"' ∨ quote = '\'') (width n : Nat) : Inner quote (hexDigits width n) := by
  have digits : ∀ k < 16, hexDigit k ≠ '"' ∧ hexDigit k ≠ '\'' ∧ hexDigit k ≠ '\\' := by decide
  induction width generalizing n with
  | zero => exact .nil
  | succ width ih =>
    obtain ⟨double, single, unescaped⟩ := digits (n % 16) (Nat.mod_lt n (by decide))
    rw [Text.hexDigits]
    exact (ih (n / 16)).append (.plain (by rcases known with rfl | rfl <;> assumption) unescaped .nil)

theorem unitEscape (unit : Nat) : Inner '"' (unitEscape unit) :=
  .escape (hexDigits (.inl rfl) 4 unit)

theorem escapePoint (point : CodePoint) : Inner '"' (escapePoint point) := by
  cases point with
  | half unit => exact unitEscape _
  | scalar c =>
    rw [Text.escapePoint, escapeChar]
    by_cases double : c = '"'
    · rw [if_pos double]
      exact .escape .nil
    by_cases backslash : c = '\\'
    · rw [if_neg double, if_pos backslash]
      exact .escape .nil
    rw [if_neg double, if_neg backslash]
    repeat' split
    all_goals first
      | exact .plain double backslash .nil
      | exact .escape .nil
      | exact unitEscape _
      | exact (unitEscape _).append (unitEscape _)

theorem spellChar (known : quote = '"' ∨ quote = '\'') (c : Char) : Inner quote (spellChar quote c) := by
  rw [Text.spellChar]
  by_cases marked : c = quote ∨ c = '\\'
  · rw [if_pos marked]
    exact .escape .nil
  obtain ⟨other, unescaped⟩ := not_or.mp marked
  rw [if_neg marked]
  repeat' split
  all_goals first
    | exact .plain other unescaped .nil
    | exact .escape .nil
    | exact .escape (hexDigits known _ _)

end Inner

end ProfileConnector.Text
