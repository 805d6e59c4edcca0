import ProfileConnector.Plan.Property
import ProfileConnector.Script.Term

/-!
Plans written as Python. A plan becomes a term first; the text of an expression is the text of its
term. Terms are evaluated with the raw record in `row`; blocks bind `value`, `index` or `entry`.
-/

namespace ProfileConnector.Python

def noValue : Term := .absent

def emptyPrincipals : Term := .emptyList

/-! ## Reads -/

def sourceLiteral (source : Source) : Term :=
  match source.hasPath, source.jsonPath with
  | true, some path => .literal path
  | _, _ => .literals source.headers

def readRaw (literal : Term) : Term := .call .readSourceValue [.variable "row", literal] []

def readText (literal : Term) : Term := .call .parseString [readRaw literal] []

def readTexts (literal : Term) : Term := .call .parseStringCollection [readRaw literal] []

def readRawEntry (relative : String) : Term :=
  .call .readEntryValue [.variable "entry", .literal relative] []

def readEntryText (relative : String) : Term := .call .parseString [readRawEntry relative] []

def readEntryTexts (relative : String) : Term := .call .parseStringCollection [readRawEntry relative] []

def withDefault (isCollection : Bool) (term : Term) (fallback : String) : Term :=
  .call (if isCollection then .applyDefaultCollection else .applyDefaultString) [term, .literal fallback] []

def textLimits (limits : Constraints) : List (String × Constant) :=
  (limits.minLength.map fun n => ("min_length", .int n)).toList ++
  (limits.maxLength.map fun n => ("max_length", .int n)).toList ++
  (limits.pattern.map fun pattern => ("pattern", .text pattern)).toList ++
  (limits.format.map fun format => ("format", .text format)).toList

def numberLimits (limits : Constraints) : List (String × Constant) :=
  (limits.minValue.map fun x => ("min_value", .float x)).toList ++
  (limits.maxValue.map fun x => ("max_value", .float x)).toList

/-- The term checked against the limits that fit the type; without such limits it stays. -/
def validated (type : PropertyType) (name : String) (term : Term) (limits : Constraints) : Term :=
  let check (helper : Helper) (options : List (String × Constant)) : Term :=
    if options.isEmpty then term else .call helper [.literal name, term] options
  if type = .boolean then term
  else if type.isNumeric then
    check (if type.isCollection then .validateNumberCollection else .validateNumber) (numberLimits limits)
  else
    check (if type.isCollection then .validateStringCollection else .validateString) (textLimits limits)

def parser : PropertyType → Helper
  | .string | .principal => .parseString
  | .dateTime => .parseDateTime
  | .boolean => .parseBoolean
  | .int64 => .parseInt
  | .double => .parseFloat
  | .stringCollection | .principalCollection => .parseStringCollection
  | .dateTimeCollection => .parseDateTimeCollection
  | .int64Collection => .parseIntCollection
  | .doubleCollection => .parseFloatCollection

def parsed (type : PropertyType) (literal : Term) : Term := .call (parser type) [readRaw literal] []

def single (read : LeafRead) : Term :=
  let term := match read.origin with
    | .row source => readText (sourceLiteral source)
    | .entry relative => readEntryText relative
  let defaulted := match read.fallback with
    | some fallback => withDefault false term fallback
    | none => term
  validated .string read.property defaulted read.limits

def many (read : LeafRead) : Term :=
  let term := match read.origin with
    | .row source => readTexts (sourceLiteral source)
    | .entry relative => readEntryTexts relative
  let defaulted := match read.fallback with
    | some fallback => withDefault true term fallback
    | none => term
  validated .stringCollection read.property defaulted read.limits

/-! ## Construction -/

def leafParser? (typeName : String) : Option Helper :=
  if typeName = "bool" then some .parseBoolean
  else if typeName = "int" then some .parseInt
  else if typeName = "float" then some .parseFloat
  else none

def converted (descriptor : Descriptor) (term : Term) : Term :=
  if descriptor.isCollection || descriptor.element.ref.kind != .scalar then term
  else match leafParser? descriptor.names.py with
    | some parser => .call parser [term] []
    | none => term

def serialized (term : Term) : Term := .call .toJson [term] []

def picked (isCollection : Bool) (variableName : String) : Term :=
  .call (if isCollection then .getCollectionValue else .getValue)
    [.variable variableName, .variable "index"] []

/-! ## Blocks -/

def absentWhenEmpty (absentIfEmpty : Bool) (term : Term) : Term :=
  if absentIfEmpty then .orAbsent term else term

def mapped (read body : Term) (absentIfEmpty : Bool) : Term :=
  absentWhenEmpty absentIfEmpty (.comprehension body "value" read)

def broadcast (reads : List (String × Term)) (body : Term) (absentIfEmpty : Bool) : Term :=
  let names := reads.map Prod.fst
  .apply names
    (absentWhenEmpty absentIfEmpty (.comprehension body "index" (.positions (names.map .variable))))
    (reads.map Prod.snd)

def eachEntry (root : String) (body : Term) : Term :=
  .comprehension body "entry" (.call .readArrayEntries [.variable "row", .literal root] [])

/-! ## Principals and placeholders -/

def principal (members : List (String × Term)) : Term :=
  .dictionary (("@odata.type", .literal PrincipalEntry.odataType) :: members)

def missingMapping (property : String) : Term := .call .raiseMissingMapping [.literal property] []

/-! ## Plans -/

mutual

def term : Plan → Term
  | .absent => noValue
  | .single read => single read
  | .many read => many read
  | .filled read => .orAbsent (many read)
  | .element => .variable "value"
  | .elementList => .singleton (.variable "value")
  | .picked slot => picked false (Layout.slotName slot)
  | .pickedList slot => picked true (Layout.slotName slot)
  | .converted descriptor value => converted descriptor (term value)
  | .record entries => .dictionary (entryTerms entries)
  | .typed names entries => .construct names.py (.dictionary (memberTerms entries))
  | .serialized value => serialized (term value)
  | .mapped read _ absentIfEmpty body => mapped (many read) (term body) absentIfEmpty
  | .broadcast reads _ absentIfEmpty body =>
    broadcast (reads.map fun (slot, read) => (Layout.slotName slot, many read)) (term body) absentIfEmpty
  | .eachEntry root body => eachEntry root (term body)
  | .principal members => principal (entryTerms members)
  | .noPrincipals => emptyPrincipals
  | .missingMapping property => missingMapping property
  | .unsourced _ => noValue
  | .parsed type source => parsed type (sourceLiteral source)
  | .defaulted isCollection fallback value => withDefault isCollection (term value) fallback
  | .validated property value => validated property.type property.name (term value) property.constraints

def entryTerms : List (String × Plan) → List (String × Term)
  | [] => []
  | (key, value) :: rest => (key, term value) :: entryTerms rest

def memberTerms : List (PropertyInfo × Plan) → List (String × Term)
  | [] => []
  | (property, value) :: rest => (property.name, term value) :: memberTerms rest

end

theorem entryTerms_eq (entries : List (String × Plan)) :
    entryTerms entries = entries.map fun (key, value) => (key, term value) := by
  induction entries with
  | nil => rfl
  | cons entry rest ih => rw [entryTerms, ih, List.map_cons]

theorem memberTerms_eq (entries : List (PropertyInfo × Plan)) :
    memberTerms entries = entries.map fun (property, value) => (property.name, term value) := by
  induction entries with
  | nil => rfl
  | cons entry rest ih => rw [memberTerms, ih, List.map_cons]

def expression (plan : Plan) : String := (term plan).write plan.baseLevel

end ProfileConnector.Python
