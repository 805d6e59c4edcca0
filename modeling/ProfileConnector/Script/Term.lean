import ProfileConnector.Number.Shortest
import ProfileConnector.Text.Quoted
import ProfileConnector.Text.Spelled

/-!
Terms of the scripted target: an expression language small enough to be evaluated. Terms are calls of
the row helpers, displays of lists and dictionaries, comprehensions, conditionals and functions that
are applied where they stand.
-/

namespace ProfileConnector

inductive Helper where
  | readSourceValue | readEntryValue | readArrayEntries
  | parseString | parseStringCollection | parseBoolean
  | parseInt | parseFloat | parseDateTime
  | parseIntCollection | parseFloatCollection | parseDateTimeCollection
  | applyDefaultString | applyDefaultCollection
  | getValue | getCollectionValue | broadcastLength
  | validateString | validateStringCollection | validateNumber | validateNumberCollection
  | isRecord | toJson | raiseMissingMapping
  deriving DecidableEq, Repr

namespace Helper

def table : List (String × Helper) := [
  ("read_source_value", .readSourceValue), ("read_entry_value", .readEntryValue),
  ("read_array_entries", .readArrayEntries), ("parse_string", .parseString),
  ("parse_string_collection", .parseStringCollection), ("parse_boolean", .parseBoolean),
  ("parse_int", .parseInt), ("parse_float", .parseFloat), ("parse_date_time", .parseDateTime),
  ("parse_int_collection", .parseIntCollection), ("parse_float_collection", .parseFloatCollection),
  ("parse_date_time_collection", .parseDateTimeCollection),
  ("apply_default_string", .applyDefaultString), ("apply_default_collection", .applyDefaultCollection),
  ("get_value", .getValue), ("get_collection_value", .getCollectionValue),
  ("broadcast_length", .broadcastLength), ("validate_string", .validateString),
  ("validate_string_collection", .validateStringCollection), ("validate_number", .validateNumber),
  ("validate_number_collection", .validateNumberCollection), ("is_record", .isRecord),
  ("to_json", .toJson), ("raise_missing_mapping", .raiseMissingMapping)]

def name (helper : Helper) : String :=
  ((table.find? fun (_, other) => other == helper).map Prod.fst).getD ""

def ofName? (name : String) : Option Helper := table.lookup name

theorem ofName?_name (helper : Helper) : ofName? helper.name = some helper := by
  cases helper <;> decide

end Helper

inductive Constant where
  | int (n : Int)
  | float (x : Binary64)
  | text (s : String)
  deriving DecidableEq, Repr

inductive Term where
  | absent
  | variable (name : String)
  | literal (text : String)
  | literals (texts : List String)
  | emptyList
  | dictionary (entries : List (String × Term))
  | call (helper : Helper) (arguments : List Term) (options : List (String × Constant))
  /-- The numbers below the length of the longest list. -/
  | positions (lists : List Term)
  | construct (typeName : String) (value : Term)
  /-- The list of a value, empty if the value counts as false. -/
  | singleton (value : Term)
  /-- The value, absent if it counts as false. -/
  | orAbsent (value : Term)
  | comprehension (body : Term) (name : String) (source : Term)
  | apply (names : List String) (body : Term) (arguments : List Term)

def Constant.write : Constant → String
  | .int n => toString n
  | .float x => x.text
  | .text s => Text.spell s

namespace Term

open Text (quote)

def indentUnit : String := "    "

def indent (level : Nat) : String := Layout.indent indentUnit level

def absentName : String := "None"

def writeOptions (options : List (String × Constant)) : List String :=
  options.map fun (name, value) => name ++ "=" ++ value.write

def writeDictionary (level : Nat) (entries : List (String × String)) : String :=
  if entries.isEmpty then "\x7b\x7d"
  else
    let lines := entries.map fun (key, value) => s!"{indent (level + 1)}{quote key}: {value}"
    let body := ",\n".intercalate lines
    s!"\x7b\n{body},\n{indent level}\x7d"

def writeApply (level : Nat) (names : List String) (body : String) (arguments : List String) : String :=
  let lines := arguments.map fun argument => indent (level + 1) ++ argument
  let shown := ",\n".intercalate lines
  s!"(lambda {Layout.items names}: {body})(\n{shown},\n{indent level})"

mutual

/-- A term as text at an indentation level; the body of a comprehension stands two levels further in. -/
def write (level : Nat) : Term → String
  | .absent => absentName
  | .variable name => name
  | .literal text => quote text
  | .literals texts => Layout.list (texts.map quote)
  | .emptyList => "[]"
  | .dictionary entries => writeDictionary level (writeEntries (level + 1) entries)
  | .call helper arguments options =>
    s!"{helper.name}({Layout.items (writeAll level arguments ++ writeOptions options)})"
  | .positions lists => s!"range(broadcast_length({Layout.items (writeAll level lists)}))"
  | .construct typeName value => s!"{typeName}({write level value})"
  | .singleton value => s!"([{write level value}] if {write level value} else [])"
  | .orAbsent value => s!"({write level value} or None)"
  | .comprehension body name source => s!"[{write (level + 2) body} for {name} in {write level source}]"
  | .apply names body arguments => writeApply level names (writeBody level body) (writeAll level arguments)

/-- The body of a function needs no parentheses of its own. -/
def writeBody (level : Nat) : Term → String
  | .orAbsent value => s!"{write level value} or None"
  | .comprehension body name source => s!"[{write (level + 2) body} for {name} in {write level source}]"
  | _ => absentName

def writeAll (level : Nat) : List Term → List String
  | [] => []
  | term :: rest => write level term :: writeAll level rest

def writeEntries (level : Nat) : List (String × Term) → List (String × String)
  | [] => []
  | (key, value) :: rest => (key, write level value) :: writeEntries level rest

end

end Term

end ProfileConnector
