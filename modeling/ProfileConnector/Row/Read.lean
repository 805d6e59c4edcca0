import ProfileConnector.Moment
import ProfileConnector.Number.Numeral
import ProfileConnector.Number.Shortest
import ProfileConnector.Path.Step
import ProfileConnector.Row.Fault
import ProfileConnector.Value.Printer

/-!
Raw values of a row and what they are read as. A row is addressed by the headers of columns or by a
path; the value found there is read as a text, a list of texts, a truth value or a number.
-/

namespace ProfileConnector.Row

/-! ## Raw values -/

/-- The values that a path reaches; the path is normalized first. -/
def matched (row : Value) (path : Text) : Except RowFault (List Value) :=
  (Path.select (Path.normalize path) row).mapError fun _ => .unreadable

/-- No match is null, one match stands for itself, several are a list. -/
def ofMatches : List Value → Value
  | [] => .null
  | [value] => value
  | values => .list values

def atPath (row : Value) (path : Text) : Except RowFault Value := do
  pure (ofMatches (← matched row path))

def atColumns (row : Value) (headers : List Text) : Value :=
  ((headers.filterMap row.member?).find? (!·.isBlank)).getD .null

/-- A value from an array entry on; without a path it is the entry itself. -/
def fromEntry (entry : Value) (relative : Text) : Except RowFault Value :=
  if relative.isEmpty then .ok entry
  else if relative.head? = some (.scalar '[') then atPath entry relative
  else atPath entry (Text.ofString "$." ++ relative)

/-! ## Texts -/

/-- A value that is no list as a text: trimmed, spelled or written out. -/
def plainText : Value → Text
  | .null => []
  | .bool b => Text.ofString (Value.boolText b)
  | .int n => Text.ofString (toString n)
  | .float x => Text.ofString x.text
  | .text t => Text.trim t
  | value => Text.ofString (Value.write Value.spaced value)

/-- A value as one text; of a list it is the first item that is not blank. -/
def text : Value → Text
  | .list items => ((items.find? (!·.isBlank)).map plainText).getD []
  | value => plainText value

def separator : CodePoint := .scalar ';'

/-- A value as texts that are not empty: the items of a list, or the parts between semicolons. -/
def texts : Value → List Text
  | .null => []
  | .list items => (items.map text).filter (!·.isEmpty)
  | value => (((text value).splitOn separator).map Text.trim).filter (!·.isEmpty)

def orDefault (value fallback : Value) : Value := if value.truthy then value else fallback

def orDefaultTexts (values fallback : Value) : Value :=
  if values.truthy then values else .list ((texts fallback).map .text)

/-! ## Truth values and numbers -/

def affirmative : List String := ["true", "1", "yes", "y"]

/-- A text says yes in one of four ways, in small or capital letters. -/
def bool : Value → Bool
  | .bool b => b
  | value => (text value).scalars?.any fun cs => affirmative.contains (String.ofList (Numeral.lowered cs))

def float (t : Text) : Except RowFault Binary64 :=
  match t.scalars?.bind Numeral.binary64? with
  | some x => .ok x
  | none => .error .unreadable

def truncated : Binary64 → Except RowFault Int
  | .nan => .error .unreadable
  | .infinite _ => .error .unbounded
  | x => .ok (x.truncated?.getD 0)

/-- A text with a point or an exponent is read as a number first. -/
def integer (t : Text) : Except RowFault Int :=
  if t.any fun point => [.scalar '.', .scalar 'e', .scalar 'E'].contains point then do truncated (← float t)
  else match t.scalars?.bind Numeral.integer? with
    | some n => .ok n
    | none => .error .unreadable

def integer? (value : Value) : Except RowFault (Option Int) :=
  if (text value).isEmpty then .ok none else (integer (text value)).map some

def float? (value : Value) : Except RowFault (Option Binary64) :=
  if (text value).isEmpty then .ok none else (float (text value)).map some

def integers (value : Value) : Except RowFault (List Int) :=
  (texts value).mapM fun t => do truncated (← float t)

def floats (value : Value) : Except RowFault (List Binary64) := (texts value).mapM float

/-! ## Moments -/

def isMoment (t : Text) : Bool := t.scalars?.any Moment.isMoment

def moment? (value : Value) : Except RowFault (Option Text) :=
  let t := text value
  if t.isEmpty then .ok none else if isMoment t then .ok (some t) else .error .unreadable

def moments (value : Value) : Except RowFault (List Text) :=
  if (texts value).all isMoment then .ok (texts value) else .error .unreadable

end ProfileConnector.Row
