import ProfileConnector.Row.Limit
import ProfileConnector.Row.Read
import ProfileConnector.Script.Term

/-!
What the helpers of a script do with the values that they are given. A helper that is given too few
or too many values, or an option that it does not know, cannot be called.
-/

namespace ProfileConnector

abbrev Options := List (String × Value)

namespace TextLimits

def length? : Value → Except RowFault (Option Int)
  | .null => .ok none
  | .int n => .ok (some n)
  | .bool b => .ok (some (if b then 1 else 0))
  | _ => .error .wrongKind

def text? : Value → Except RowFault (Option Text)
  | .null => .ok none
  | .text t => .ok (some t)
  | _ => .error .wrongKind

def ofOptions : Options → Except RowFault TextLimits
  | [] => .ok {}
  | (name, value) :: rest => do
    let limits ← ofOptions rest
    match name with
    | "min_length" => pure { limits with least := ← length? value }
    | "max_length" => pure { limits with most := ← length? value }
    | "pattern" => pure { limits with pattern := ← text? value }
    | "format" => pure { limits with format := ← text? value }
    | _ => throw .wrongKind

end TextLimits

def NumberLimits.ofOptions : Options → Except RowFault NumberLimits
  | [] => .ok {}
  | (name, value) :: rest => do
    let limits ← ofOptions rest
    match name with
    | "min_value" => pure { limits with least := value }
    | "max_value" => pure { limits with most := value }
    | _ => throw .wrongKind

namespace Row

def headers (source : Value) : Except RowFault (List Text) :=
  match source.elements? with
  | none => .error .wrongKind
  | some items => do
    let listed ← items.mapM fun
      | .text header => pure (some header)
      | .list _ | .record _ => throw .wrongKind
      | _ => pure none
    pure (listed.filterMap id)

def sourceValue (row source : Value) : Except RowFault Value :=
  match row, source with
  | row, .text path => atPath row path
  | .record members, source => do pure (atColumns (.record members) (← headers source))
  | _, _ => .ok .null

def asText : Value → Except RowFault Text
  | .text t => .ok t
  | _ => .error .wrongKind

def entryValue (entry relative : Value) : Except RowFault Value := do
  if !relative.truthy then pure entry else fromEntry entry (← asText relative)

end Row

namespace Helper

open Row

def ofOption {α : Type} (make : α → Value) : Option α → Value
  | some a => make a
  | none => .null

def textList (ts : List Text) : Value := .list (ts.map .text)

def one (f : Value → Except RowFault Value) : List Value → Except RowFault Value
  | [value] => f value
  | _ => .error .wrongKind

def two (f : Value → Value → Except RowFault Value) : List Value → Except RowFault Value
  | [first, second] => f first second
  | _ => .error .wrongKind

def plain : Helper → List Value → Except RowFault Value
  | .readSourceValue => two sourceValue
  | .readEntryValue => two entryValue
  | .readArrayEntries => two fun row root => do pure (.list (← matched row (← asText root)))
  | .parseString => one fun value => .ok (.text (text value))
  | .parseStringCollection => one fun value => .ok (textList (texts value))
  | .parseBoolean => one fun value => .ok (.bool (bool value))
  | .parseInt => one fun value => (integer? value).map (ofOption .int)
  | .parseFloat => one fun value => (float? value).map (ofOption .float)
  | .parseDateTime => one fun value => (moment? value).map (ofOption .text)
  | .parseIntCollection => one fun value => (integers value).map fun ns => .list (ns.map .int)
  | .parseFloatCollection => one fun value => (floats value).map fun xs => .list (xs.map .float)
  | .parseDateTimeCollection => one fun value => (moments value).map textList
  | .applyDefaultString => two fun value fallback => .ok (orDefault value fallback)
  | .applyDefaultCollection => two fun values fallback => .ok (orDefaultTexts values fallback)
  | .getValue => two picked
  | .getCollectionValue => two pickedList
  | .broadcastLength => fun lists => (Row.broadcastLength lists).map fun n => .int n
  | .isRecord => one fun value => .ok (.bool value.isRecord)
  | .toJson => one fun value => .ok (Value.ofString value.toJson)
  | .raiseMissingMapping => one fun name => do throw (.missingMapping (← asText name))
  | _ => fun _ => .error .wrongKind

def run (helper : Helper) (arguments : List Value) (options : Options) : Except RowFault Value :=
  let text (check : Text → TextLimits → Value → Except RowFault Value) :=
    two (fun name value => do check (← asText name) (← TextLimits.ofOptions options) value) arguments
  let number (check : Text → NumberLimits → Value → Except RowFault Value) :=
    two (fun name value => do check (← asText name) (← NumberLimits.ofOptions options) value) arguments
  match helper with
  | .validateString => text limitedText
  | .validateStringCollection => text fun name limits => eachLimited (limitedText name limits)
  | .validateNumber => number limitedNumber
  | .validateNumberCollection => number fun name limits => eachLimited (limitedNumber name limits)
  | helper => if options.isEmpty then plain helper arguments else .error .wrongKind

end Helper

end ProfileConnector
