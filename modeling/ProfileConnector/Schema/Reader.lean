import ProfileConnector.Number.Numeral
import ProfileConnector.Schema.Basic
import ProfileConnector.Value.Basic

/-!
Reading schemas from dynamic values. All faults of a value are reported, in the order of the fields,
each with the place where it was found. Members have a name in camel case, under which faults are
reported, and one with underscores; if both are present the first one counts.
-/

namespace ProfileConnector

inductive Locator where
  | key (name : String)
  | position (i : Nat)
  deriving DecidableEq, Repr

inductive FaultKind where
  | missing
  | notText
  | notTuple
  | notList
  | notRecord
  | notAChoice
  | notBool | unreadableBool
  | notInt | unreadableInt | oversizedInt | fractionalInt | infiniteInt
  | notFloat | unreadableFloat
  | notAFilePath
  deriving DecidableEq, Repr

structure InputFault where
  place : List Locator
  kind : FaultKind
  deriving DecidableEq, Repr

inductive Checked (α : Type) where
  | ok (value : α)
  | faulty (faults : List InputFault)

namespace Checked

variable {α β : Type}

def map (f : α → β) : Checked α → Checked β
  | .ok value => .ok (f value)
  | .faulty faults => .faulty faults

def apply : Checked (α → β) → Checked α → Checked β
  | .ok f, .ok value => .ok (f value)
  | .ok _, .faulty faults => .faulty faults
  | .faulty faults, .ok _ => .faulty faults
  | .faulty first, .faulty second => .faulty (first ++ second)

instance : Applicative Checked where
  pure := .ok
  seq f value := f.apply (value ())

def fault (kind : FaultKind) : Checked α := .faulty [⟨[], kind⟩]

def within (locator : Locator) : Checked α → Checked α
  | .ok value => .ok value
  | .faulty faults => .faulty (faults.map fun f => { f with place := locator :: f.place })

end Checked

namespace Schema

abbrev Decoder (α : Type) := Value → Checked α

def text : Decoder String
  | .text t => .ok t.toString
  | _ => .fault .notText

def optional {α : Type} (decode : Decoder α) : Decoder (Option α)
  | .null => .ok none
  | value => (decode value).map some

def elements {α : Type} (decode : Decoder α) : Nat → List Value → Checked (List α)
  | _, [] => .ok []
  | i, item :: rest =>
    List.cons <$> (decode item).within (.position i) <*> elements decode (i + 1) rest

def tuple {α : Type} (decode : Decoder α) : Decoder (List α)
  | .list items => elements decode 0 items
  | _ => .fault .notTuple

def choice {α : Type} (ofName? : String → Option α) : Decoder α
  | .text t =>
    match ofName? t.toString with
    | some value => .ok value
    | none => .fault .notAChoice
  | _ => .fault .notAChoice

def falseWords : List String := ["0", "off", "f", "false", "n", "no"]

def trueWords : List String := ["1", "on", "t", "true", "y", "yes"]

/-- A truth value, the number zero or one, or a word for it. -/
def bool : Decoder Bool
  | .bool b => .ok b
  | .int n => if n = 0 then .ok false else if n = 1 then .ok true else .fault .unreadableBool
  | .float x =>
    if !x.isIntegral then .fault .notBool
    else match x.truncated? with
      | some 0 => .ok false
      | some 1 => .ok true
      | some n => if n.natAbs < Nat.pow 2 63 then .fault .unreadableBool else .fault .notBool
      | none => .fault .notBool
  | .text t =>
    let word := String.ofList (Numeral.lowered t.toChars)
    if falseWords.contains word then .ok false
    else if trueWords.contains word then .ok true
    else .fault .unreadableBool
  | _ => .fault .notBool

def isAscii (cs : List Char) : Bool := cs.all (·.toNat < 0x80)

/-- A numeral for an integer: digits of ASCII, perhaps with a point and zeros behind them. -/
def integerText? (cs : List Char) : Option Int :=
  let (whole, part) := Numeral.cutAt (· == '.') (Text.trimChars cs)
  if isAscii whole && (part.getD []).all (· == '0') then Numeral.integer? whole else none

/-- An integer, a truth value, a number without a fraction, or a numeral. -/
def int : Decoder Int
  | .int n => .ok n
  | .bool b => .ok (if b then 1 else 0)
  | .float x =>
    match x.truncated? with
    | none => .fault .infiniteInt
    | some n =>
      if !x.isIntegral then .fault .fractionalInt
      else if n.natAbs < Nat.pow 2 63 then .ok n
      else .fault .oversizedInt
  | .text t =>
    match integerText? t.toChars with
    | some n => .ok n
    | none => if Numeral.digitLimit < t.length then .fault .oversizedInt else .fault .unreadableInt
  | _ => .fault .notInt

/-- Underscores inside, not at an end and not two together, do not count. -/
def withoutUnderscores? (cs : List Char) : Option (List Char) :=
  let parts := cs.splitOn '_'
  if parts.any (·.isEmpty) then none else some parts.flatten

def float : Decoder Binary64
  | .float x => .ok x
  | .int n =>
    match Binary64.ofInt? n with
    | some x => .ok x
    | none => .fault .notFloat
  | .bool b => .ok (Binary64.ofRatio false (if b then 1 else 0) 1)
  | .text t =>
    let cs := Text.trimChars t.toChars
    match if isAscii cs then (withoutUnderscores? cs).bind Numeral.binary64? else none with
    | some x => .ok x
    | none => .fault .unreadableFloat
  | _ => .fault .notFloat

abbrev Members := List (Text × Value)

def present? (names : List String) (members : Members) : Option Value :=
  names.findSome? fun name => KeyedList.get? (Text.ofString name) members

/-- A member that may be missing. Faults are reported under the first name. -/
def member {α : Type} (names : List String) (decode : Decoder α) (default : α) (members : Members) :
    Checked α :=
  match present? names members with
  | some value => (decode value).within (.key (names.headD ""))
  | none => .ok default

def required {α : Type} (names : List String) (decode : Decoder α) (members : Members) : Checked α :=
  match present? names members with
  | some value => (decode value).within (.key (names.headD ""))
  | none => .faulty [⟨[.key (names.headD "")], .missing⟩]

def record {α : Type} (decode : Members → Checked α) : Decoder α
  | .record members => decode members
  | _ => .fault .notRecord

def source : Decoder Source := record fun members =>
  Source.mk
    <$> member ["csvHeaders", "csv_headers"] (tuple text) [] members
    <*> member ["jsonPath", "json_path"] (optional text) none members
    <*> member ["default"] (optional text) none members
    <*> member ["explicit"] bool false members
    <*> member ["noSource", "no_source"] bool false members

def fieldMapping : Decoder FieldMapping := record fun members =>
  FieldMapping.mk <$> required ["path"] text members <*> required ["source"] source members

def entityMapping : Decoder EntityMapping := record fun members =>
  EntityMapping.mk
    <$> required ["entity"] text members
    <*> member ["fields"] (tuple fieldMapping) [] members

def searchFlags : Decoder SearchFlags := record fun members =>
  SearchFlags.mk
    <$> member ["searchable"] (optional bool) none members
    <*> member ["queryable"] (optional bool) none members
    <*> member ["retrievable"] (optional bool) none members
    <*> member ["refinable"] (optional bool) none members
    <*> member ["exactMatchRequired", "exact_match_required"] (optional bool) none members

def patternConstraint : Decoder PatternConstraint := record fun members =>
  PatternConstraint.mk
    <$> required ["regex"] text members
    <*> member ["message"] (optional text) none members

def property : Decoder Property := record fun members =>
  Property.mk
    <$> required ["name"] text members
    <*> required ["type"] (choice PropertyType.ofName?) members
    <*> member ["description"] (optional text) none members
    <*> member ["labels"] (tuple text) [] members
    <*> member ["aliases"] (tuple text) [] members
    <*> member ["search"] searchFlags {} members
    <*> member ["personEntity", "person_entity"] (optional entityMapping) none members
    <*> member ["source"] source {} members
    <*> member ["minLength", "min_length"] (optional int) none members
    <*> member ["maxLength", "max_length"] (optional int) none members
    <*> member ["pattern"] (optional patternConstraint) none members
    <*> member ["format"] (optional text) none members
    <*> member ["minValue", "min_value"] (optional float) none members
    <*> member ["maxValue", "max_value"] (optional float) none members

def decode : Decoder Schema := record fun members =>
  Schema.mk
    <$> member ["contentCategory", "content_category"] (optional text) none members
    <*> member ["inputFormat", "input_format"] (choice InputFormat.ofName?) .csv members
    <*> member ["itemTypeName", "item_type_name"] text "Item" members
    <*> member ["idPropertyName", "id_property_name"] text "id" members
    <*> member ["properties"] (tuple property) [] members

end Schema

end ProfileConnector
