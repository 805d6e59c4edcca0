import ProfileConnector.Script.Term

/-!
The texts of terms, form by form. They hold by definition; the equations that `rw` and `simp` would
derive for `Term.write` itself are too long to be found.
-/

namespace ProfileConnector.Term

open Text (quote)

variable (level : Nat) (value body source : Term) (name : String)

theorem write_variable : write level (.variable name) = name := rfl

theorem write_literal (text : String) : write level (.literal text) = quote text := rfl

theorem write_literals (texts : List String) : write level (.literals texts) = Layout.list (texts.map quote) := rfl

theorem write_dictionary (entries : List (String × Term)) :
    write level (.dictionary entries) = writeDictionary level (writeEntries (level + 1) entries) := rfl

theorem write_call (helper : Helper) (arguments : List Term) (options : List (String × Constant)) :
    write level (.call helper arguments options) =
      s!"{helper.name}({Layout.items (writeAll level arguments ++ writeOptions options)})" := rfl

theorem write_positions (lists : List Term) :
    write level (.positions lists) = s!"range(broadcast_length({Layout.items (writeAll level lists)}))" := rfl

theorem write_construct : write level (.construct name value) = s!"{name}({write level value})" := rfl

theorem write_singleton :
    write level (.singleton value) = s!"([{write level value}] if {write level value} else [])" := rfl

theorem write_orAbsent : write level (.orAbsent value) = s!"({write level value} or None)" := rfl

theorem write_comprehension :
    write level (.comprehension body name source) =
      s!"[{write (level + 2) body} for {name} in {write level source}]" := rfl

theorem write_apply (names : List String) (arguments : List Term) :
    write level (.apply names body arguments) =
      writeApply level names (writeBody level body) (writeAll level arguments) := rfl

theorem writeAll_eq (terms : List Term) : writeAll level terms = terms.map (write level) := by
  induction terms with
  | nil => rfl
  | cons term rest ih => exact congrArg (term.write level :: ·) ih

theorem writeEntries_eq (entries : List (String × Term)) :
    writeEntries level entries = entries.map fun (key, value) => (key, write level value) := by
  induction entries with
  | nil => rfl
  | cons entry rest ih => exact congrArg ((entry.1, entry.2.write level) :: ·) ih

end ProfileConnector.Term
