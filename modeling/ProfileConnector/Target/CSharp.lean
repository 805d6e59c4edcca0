import ProfileConnector.Number.Shortest
import ProfileConnector.Plan.Property
import ProfileConnector.Text.Quoted

/-!
Plans written as C#. An expression is written for a method with the raw record in `row`; blocks
become delegates that are invoked where they stand. Lengths are written by way of binary numbers, so
a length beyond their range cannot be written.
-/

namespace ProfileConnector

inductive WriteFault where
  | lengthOverflow
  deriving DecidableEq, Repr

namespace CSharp

open Text (quote)

def indentUnit : String := "    "

def indent (level : Nat) : String := Layout.indent indentUnit level

def noValue : String := "null"

def emptyPrincipals : String := "new List<Principal>()"

/-! ## Reads -/

def sourceLiteral (source : Source) : String :=
  match source.hasPath, source.jsonPath with
  | true, some path => quote path
  | _, _ =>
    let headers := Layout.items (source.headers.map quote)
    s!"new[] \x7b {headers} \x7d"

def readText (literal : String) : String := s!"RowParser.ParseString(row, {literal})"

def readTexts (literal : String) : String := s!"RowParser.ParseStringCollection(row, {literal})"

def readEntryText (relative : String) : String := s!"RowParser.ParseString(entry, {quote relative})"

def readEntryTexts (relative : String) : String :=
  s!"RowParser.ParseStringCollection(entry, {quote relative})"

def withDefault (isCollection : Bool) (expression fallback : String) : String :=
  let helper := if isCollection then "ApplyDefaultCollection" else "ApplyDefault"
  s!"RowParser.{helper}({expression}, {quote fallback})"

def lengthLiteral : Option Int → Except WriteFault String
  | none => .ok "null"
  | some n =>
    match Binary64.ofInt? n with
    | some x => .ok x.integralText
    | none => .error .lengthOverflow

def textLiteral : Option String → String
  | none => "null"
  | some text => quote text

def numberLiteral : Option Binary64 → String
  | none => "null"
  | some x => x.integralText

def textLimits (limits : Constraints) : Except WriteFault String := do
  let least ← lengthLiteral limits.minLength
  let most ← lengthLiteral limits.maxLength
  pure (Layout.items [least, most, textLiteral limits.pattern, textLiteral limits.format])

def numberValidator : PropertyType → String
  | .int64 => "ValidateInt64"
  | .int64Collection => "ValidateInt64Collection"
  | .doubleCollection => "ValidateDoubleCollection"
  | _ => "ValidateDouble"

/--
The expression checked against the limits that fit the type. A date is checked as the text it is read
from, if the literal of its source is known.
-/
def validated (type : PropertyType) (name expression : String) (limits : Constraints)
    (literal : Option String) : Except WriteFault String := do
  if type = .boolean then pure expression
  else if type.isNumeric then
    if !limits.hasNumber then pure expression
    else
      let bounds := Layout.items [numberLiteral limits.minValue, numberLiteral limits.maxValue]
      pure s!"Validation.{numberValidator type}({quote name}, {expression}, {bounds})"
  else if !limits.hasString then pure expression
  else
    let arguments ← textLimits limits
    match type, literal with
    | .dateTime, some source =>
      let raw := s!"RowParser.ReadValue(row, {source})"
      pure s!"RowParser.ParseDateTime(Validation.ValidateString({quote name}, {raw}, {arguments}))"
    | _, _ =>
      let helper := if type.isCollection then "ValidateStringCollection" else "ValidateString"
      pure s!"Validation.{helper}({quote name}, {expression}, {arguments})"

def parser : PropertyType → String
  | .string | .principal => "ParseString"
  | .dateTime => "ParseDateTime"
  | .boolean => "ParseBoolean"
  | .int64 => "ParseInt64"
  | .double => "ParseDouble"
  | .stringCollection | .principalCollection => "ParseStringCollection"
  | .dateTimeCollection => "ParseDateTimeCollection"
  | .int64Collection => "ParseInt64Collection"
  | .doubleCollection => "ParseDoubleCollection"

def parsed (type : PropertyType) (literal : String) : String := s!"RowParser.{parser type}(row, {literal})"

def single (read : LeafRead) : Except WriteFault String :=
  let expression := match read.origin with
    | .row source => readText (sourceLiteral source)
    | .entry relative => readEntryText relative
  let defaulted := match read.fallback with
    | some fallback => withDefault false expression fallback
    | none => expression
  validated .string read.property defaulted read.limits none

def many (read : LeafRead) : Except WriteFault String :=
  let expression := match read.origin with
    | .row source => readTexts (sourceLiteral source)
    | .entry relative => readEntryTexts relative
  let defaulted := match read.fallback with
    | some fallback => withDefault true expression fallback
    | none => expression
  validated .stringCollection read.property defaulted read.limits none

/-! ## Construction -/

/-- A construction with an initializer; without one it is a call. -/
def block (head : String) (lines : List String) (level : Nat) : String :=
  if lines.isEmpty then s!"{head}()"
  else
    let body := ",\n".intercalate lines
    s!"{head}\n{indent level}\x7b\n{body}\n{indent level}\x7d"

def objectLiteral (entries : List (String × String)) (level : Nat) : String :=
  block "new Dictionary<string, object?>"
    (entries.map fun (key, value) => s!"{indent (level + 1)}[{quote key}] = {value}") level

/-- The name of a member, which must differ from the name of its class. -/
def memberNameIn (className memberName : String) : String :=
  if memberName = className then memberName ++ "Value" else memberName

def typedObject (className : String) (entries : List (String × String)) (level : Nat) : String :=
  block s!"new {className}"
    (entries.map fun (memberName, value) =>
      s!"{indent (level + 1)}{memberNameIn className memberName} = {value}") level

def leafParser? (typeName : String) : Option String :=
  KeyedList.get? typeName [
    ("bool", "ParseBoolean"), ("int", "ParseInt32"), ("long", "ParseInt64"), ("double", "ParseDouble"),
    ("DateTimeOffset", "ParseDateTime")]

def converted (descriptor : Descriptor) (expression : String) : String :=
  if descriptor.isCollection then expression
  else match descriptor.element.ref.kind with
    | .enumeration => s!"RowParser.ParseEnum<{descriptor.names.cs}>({expression})"
    | .scalar =>
      match leafParser? descriptor.names.cs with
      | some parser => s!"RowParser.{parser}({expression})"
      | none => expression
    | _ => expression

def serialized (expression : String) (level : Nat) : String :=
  s!"JsonSerializer.Serialize(\n{indent level}{expression}\n{indent level})"

def singletonList (value : String) : String := s!"new List<string> \x7b {value} \x7d"

def picked (isCollection : Bool) (variableName : String) : String :=
  let helper := if isCollection then "GetCollectionValue" else "GetValue"
  s!"{helper}({variableName}, index)"

/-! ## Blocks -/

def invoked (resultType : String) (body : List String) (level : Nat) : String :=
  let statements := Layout.lines body
  s!"new Func<{resultType}>(() =>\n{indent level}\x7b\n{statements}\n{indent level}\x7d).Invoke()"

def filled (read : String) (level : Nat) : String :=
  let inner := indent (level + 1)
  invoked "List<string>?" [
    s!"{inner}var values = {read};",
    s!"{inner}return values.Count == 0 ? null : values;"] level

def mapped (read body element : String) (absentIfEmpty : Bool) (level : Nat) : String :=
  let inner := indent (level + 1)
  let step := indent (level + 2)
  if absentIfEmpty then
    invoked s!"List<{element}>?" [
      s!"{inner}var values = {read};",
      s!"{inner}if (values.Count == 0) return null;",
      s!"{inner}var results = new List<{element}>();",
      s!"{inner}foreach (var value in values)",
      s!"{inner}\x7b",
      s!"{step}results.Add({body});",
      s!"{inner}\x7d",
      s!"{inner}return results;"] level
  else s!"{read}\n{inner}.Select(value => {body})\n{inner}.ToList()"

def broadcast (reads : List (String × String)) (body element : String) (absentIfEmpty : Bool)
    (level : Nat) : String :=
  let inner := indent (level + 1)
  let step := indent (level + 2)
  let resultType := if absentIfEmpty then s!"List<{element}>?" else s!"List<{element}>"
  invoked resultType
    ((reads.map fun (name, read) => s!"{inner}var {name} = {read};") ++
    [s!"{inner}string GetValue(List<string> values, int index)",
      s!"{inner}\x7b",
      s!"{step}if (values.Count == 0) return \"\";",
      s!"{step}if (values.Count == 1) return values[0] ?? \"\";",
      s!"{step}return index < values.Count ? (values[index] ?? \"\") : \"\";",
      s!"{inner}\x7d",
      s!"{inner}List<string> GetCollectionValue(List<string> values, int index)",
      s!"{inner}\x7b",
      s!"{step}if (values.Count == 0) return new List<string>();",
      s!"{step}if (values.Count == 1) return new List<string> \x7b values[0] ?? \"\" \x7d;",
      s!"{step}return index < values.Count ? new List<string> \x7b values[index] ?? \"\" \x7d : new List<string>();",
      s!"{inner}\x7d",
      s!"{inner}var maxLen = 0;"] ++
    (reads.map fun (name, _) => s!"{inner}maxLen = Math.Max(maxLen, {name}.Count);") ++
    (if absentIfEmpty then [s!"{inner}if (maxLen == 0) return null;"] else []) ++
    [s!"{inner}var results = new List<{element}>();",
      s!"{inner}for (var index = 0; index < maxLen; index++)",
      s!"{inner}\x7b",
      s!"{step}results.Add({body});",
      s!"{inner}\x7d",
      s!"{inner}return results;"]) level

def eachEntry (root body : String) (level : Nat) : String :=
  let inner := indent (level + 1)
  let step := indent (level + 2)
  invoked "List<string>" [
    s!"{inner}var results = new List<string>();",
    s!"{inner}foreach (var entry in RowParser.ReadArrayEntries(row, {quote root}))",
    s!"{inner}\x7b",
    s!"{step}results.Add({body});",
    s!"{inner}\x7d",
    s!"{inner}return results;"] level

/-! ## Principals and placeholders -/

/-- The members of the principal class; entries without one go into its additional data. -/
def principalMembers : List String := [
  "Upn", "TenantId", "ExternalName", "ExternalId", "EntraDisplayName", "EntraId", "Email"]

def principalParts (members : List (String × Option String × String)) :
    List (String × String) × List (String × String) :=
  (members.filterMap fun (_, member, value) => match member with
      | some name => if principalMembers.contains name then some (name, value) else none
      | none => none,
    members.filterMap fun (key, member, value) => match member with
      | some name => if principalMembers.contains name then none else some (key, value)
      | none => some (key, value))

def principal (members : List (String × Option String × String)) (level : Nat) : String :=
  let inner := indent (level + 1)
  let (known, extra) := principalParts members
  let additional :=
    if extra.isEmpty then [] else [s!"{inner}AdditionalData = {objectLiteral extra (level + 1)}"]
  block "new Principal"
    (s!"{inner}OdataType = {quote PrincipalEntry.odataType}" ::
      (known.map fun (name, value) => s!"{inner}{name} = {value}") ++ additional) level

def missingMapping (property : String) : String :=
  s!"new Func<object?>(() => throw new NotImplementedException({quote (Plan.missingMappingMessage property)})).Invoke()"

def unsourced : String := "default!"

/-! ## Plans -/

mutual

def write (level : Nat) : Plan → Except WriteFault String
  | .absent => pure noValue
  | .single read => single read
  | .many read => many read
  | .filled read => do pure (filled (← many read) level)
  | .element => pure "value"
  | .elementList => pure (singletonList "value")
  | .picked slot => pure (picked false (Layout.slotName slot))
  | .pickedList slot => pure (picked true (Layout.slotName slot))
  | .converted descriptor value => do pure (converted descriptor (← write level value))
  | .record entries => do pure (objectLiteral (← writeEntries (level + 1) entries) level)
  | .typed names entries => do pure (typedObject names.cs (← writeMembers (level + 1) entries) level)
  | .serialized value => do pure (serialized (← write level value) level)
  | .mapped read element absentIfEmpty body => do
    pure (mapped (← many read) (← write (level + 2) body) element.cs absentIfEmpty level)
  | .broadcast reads element absentIfEmpty body => do
    let shown ← reads.mapM fun (slot, read) => do pure (Layout.slotName slot, ← many read)
    pure (broadcast shown (← write (level + 2) body) element.cs absentIfEmpty level)
  | .eachEntry root body => do pure (eachEntry root (← write (level + 2) body) level)
  | .principal members => do
    let entries ← writeEntries (level + 1) members
    pure (principal (entries.map fun (key, value) => (key, PrincipalEntry.member? key, value)) level)
  | .noPrincipals => pure emptyPrincipals
  | .missingMapping property => pure (missingMapping property)
  | .unsourced _ => pure unsourced
  | .parsed type source => pure (parsed type (sourceLiteral source))
  | .defaulted isCollection fallback value => do
    pure (withDefault isCollection (← write level value) fallback)
  | .validated property value => do
    validated property.type property.name (← write level value) property.constraints
      (some (sourceLiteral property.source))

def writeEntries (level : Nat) : List (String × Plan) → Except WriteFault (List (String × String))
  | [] => pure []
  | (key, value) :: rest => do pure ((key, ← write level value) :: (← writeEntries level rest))

def writeMembers (level : Nat) : List (PropertyInfo × Plan) → Except WriteFault (List (String × String))
  | [] => pure []
  | (property, value) :: rest => do
    pure ((property.memberName, ← write level value) :: (← writeMembers level rest))

end

def expression (plan : Plan) : Except WriteFault String := write plan.baseLevel plan

end CSharp

end ProfileConnector
