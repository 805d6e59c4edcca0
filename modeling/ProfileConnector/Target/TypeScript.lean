import ProfileConnector.Number.Shortest
import ProfileConnector.Plan.Property
import ProfileConnector.Text.Quoted

/-!
Plans written as TypeScript. An expression is written for a transform in which `row` is the raw
record and the row parser is in scope; blocks become functions that are called where they stand.
-/

namespace ProfileConnector.TypeScript

open Text (quote)

def indentUnit : String := "  "

def indent (level : Nat) : String := Layout.indent indentUnit level

def noValue : String := "undefined"

def emptyPrincipals : String := "[]"

/-! ## Reads -/

def sourceLiteral (source : Source) : String :=
  match source.hasPath, source.jsonPath with
  | true, some path => quote path
  | _, _ => Layout.list (source.headers.map quote)

def readText (literal : String) : String := s!"parseString(readSourceValue(row, {literal}))"

def readTexts (literal : String) : String := s!"parseStringCollection(readSourceValue(row, {literal}))"

def readEntryText (relative : String) : String :=
  if relative.isEmpty then "parseString(entry)"
  else s!"parseString(readEntryValue(entry, {quote relative}))"

def readEntryTexts (relative : String) : String :=
  if relative.isEmpty then "parseStringCollection(entry)"
  else s!"parseStringCollection(readEntryValue(entry, {quote relative}))"

def withDefault (isCollection : Bool) (expression fallback : String) : String :=
  let helper := if isCollection then "applyDefaultCollection" else "applyDefaultString"
  s!"{helper}({expression}, {quote fallback})"

/-- The limits of texts that have a value; an empty pattern or format has none. -/
def textLimits (limits : Constraints) : List String :=
  (limits.minLength.map fun n => s!"minLength: {n}").toList ++
  (limits.maxLength.map fun n => s!"maxLength: {n}").toList ++
  ((limits.pattern.filter (!·.isEmpty)).map fun pattern => s!"pattern: {quote pattern}").toList ++
  ((limits.format.filter (!·.isEmpty)).map fun format => s!"format: {quote format}").toList

def numberLimits (limits : Constraints) : List String :=
  (limits.minValue.map fun x => s!"minValue: {x.integralText}").toList ++
  (limits.maxValue.map fun x => s!"maxValue: {x.integralText}").toList

def validated (type : PropertyType) (name expression : String) (limits : Constraints) : String :=
  let check (helper : String) (parts : List String) : String :=
    if parts.isEmpty then expression
    else
      let shown := Layout.items parts
      s!"{helper}({quote name}, {expression}, \x7b {shown} \x7d)"
  if type.isNumeric then
    check (if type.isCollection then "validateNumberCollection" else "validateNumber") (numberLimits limits)
  else if type = .boolean then expression
  else
    check (if type.isCollection then "validateStringCollection" else "validateString") (textLimits limits)

def parser : PropertyType → String
  | .string | .dateTime | .principal => "parseString"
  | .boolean => "parseBoolean"
  | .int64 | .double => "parseNumber"
  | .stringCollection | .dateTimeCollection | .principalCollection => "parseStringCollection"
  | .int64Collection | .doubleCollection => "parseNumberCollection"

def parsed (type : PropertyType) (literal : String) : String :=
  s!"{parser type}(readSourceValue(row, {literal}))"

def single (read : LeafRead) : String :=
  let expression := match read.origin with
    | .row source => readText (sourceLiteral source)
    | .entry relative => readEntryText relative
  let defaulted := match read.fallback with
    | some fallback => withDefault false expression fallback
    | none => expression
  if read.limits.hasString then validated .string read.property defaulted read.limits else defaulted

def many (read : LeafRead) : String :=
  let expression := match read.origin with
    | .row source => readTexts (sourceLiteral source)
    | .entry relative => readEntryTexts relative
  let defaulted := match read.fallback with
    | some fallback => withDefault true expression fallback
    | none => expression
  if read.limits.hasString then validated .stringCollection read.property defaulted read.limits
  else defaulted

/-! ## Construction -/

def objectLiteral (entries : List (String × String)) (level : Nat) : String :=
  if entries.isEmpty then "\x7b\x7d"
  else
    let lines := entries.map fun (key, value) => s!"{indent (level + 1)}{quote key}: {value}"
    let body := ",\n".intercalate lines
    s!"\x7b\n{body}\n{indent level}\x7d"

def typedObject (typeName : String) (entries : List (String × String)) (level : Nat) : String :=
  s!"({objectLiteral entries level} as {typeName})"

def leafParser? (typeName : String) : Option String :=
  if typeName = "boolean" then some "parseBoolean"
  else if typeName = "number" then some "parseNumber"
  else none

def converted (descriptor : Descriptor) (expression : String) : String :=
  if descriptor.isCollection || descriptor.element.ref.kind != .scalar then expression
  else match leafParser? descriptor.names.ts with
    | some parser => s!"{parser}({expression})"
    | none => expression

def serialized (expression : String) : String := s!"JSON.stringify({expression})"

def singletonList (value : String) : String := s!"({value} ? [{value}] : [])"

def picked (isCollection : Bool) (variableName : String) : String :=
  let helper := if isCollection then "getCollectionValue" else "getValue"
  s!"{helper}({variableName}, index)"

/-! ## Blocks -/

def filled (read : String) (level : Nat) : String :=
  let inner := indent (level + 1)
  Layout.lines [
    "(() => \x7b",
    s!"{inner}const values = {read};",
    s!"{inner}return values.length > 0 ? values : undefined;",
    s!"{indent level}\x7d)()"]

def mapped (read body element : String) (absentIfEmpty : Bool) (level : Nat) : String :=
  let inner := indent (level + 1)
  if absentIfEmpty then
    Layout.lines [
      "(() => \x7b",
      s!"{inner}const values = {read};",
      s!"{inner}if (values.length === 0) return undefined;",
      s!"{inner}return values.map((value): {element} => {body});",
      s!"{indent level}\x7d)()"]
  else s!"{read}.map((value) => {body})"

def broadcast (reads : List (String × String)) (body element : String) (absentIfEmpty : Bool)
    (level : Nat) : String :=
  let inner := indent (level + 1)
  let step := indent (level + 2)
  let names := Layout.items (reads.map Prod.fst)
  Layout.lines <|
    ["(() => \x7b"] ++
    (reads.map fun (name, read) => s!"{inner}const {name} = {read};") ++
    [s!"{inner}const lengths = [{names}].map((value) => value.length);",
      s!"{inner}const maxLen = Math.max(0, ...lengths);"] ++
    (if absentIfEmpty then [s!"{inner}if (maxLen === 0) return undefined;"] else []) ++
    [s!"{inner}const getValue = (values: string[], index: number): string => \x7b",
      s!"{step}if (values.length === 0) return \"\";",
      s!"{step}if (values.length === 1) return values[0] ?? \"\";",
      s!"{step}return values[index] ?? \"\";",
      s!"{inner}\x7d;",
      s!"{inner}const getCollectionValue = (values: string[], index: number): string[] => \x7b",
      s!"{step}if (values.length === 0) return [];",
      s!"{step}if (values.length === 1) return [values[0] ?? \"\"];",
      s!"{step}return index < values.length ? [values[index] ?? \"\"] : [];",
      s!"{inner}\x7d;",
      s!"{inner}const results: Array<{element}> = [];",
      s!"{inner}for (let index = 0; index < maxLen; index++) \x7b",
      s!"{step}results.push({body});",
      s!"{inner}\x7d",
      s!"{inner}return results;",
      s!"{indent level}\x7d)()"]

def eachEntry (root body : String) : String := s!"readArrayEntries(row, {quote root}).map((entry) => {body})"

/-! ## Principals and placeholders -/

def principal (members : List (String × String)) (level : Nat) : String :=
  let entries := ("@odata.type", quote PrincipalEntry.odataType) :: members
  s!"({objectLiteral entries level} as Principal)"

def missingMapping (property : String) : String :=
  s!"(() => \x7b throw new Error({quote (Plan.missingMappingMessage property)}); \x7d)()"

def typeName : PropertyType → String
  | .string | .dateTime => "string"
  | .boolean => "boolean"
  | .int64 | .double => "number"
  | .stringCollection | .dateTimeCollection => "string[]"
  | .int64Collection | .doubleCollection => "number[]"
  | .principal => "Principal"
  | .principalCollection => "Principal[]"

def unsourced (type : PropertyType) : String := s!"undefined as unknown as {typeName type}"

/-! ## Plans -/

mutual

def write (level : Nat) : Plan → String
  | .absent => noValue
  | .single read => single read
  | .many read => many read
  | .filled read => filled (many read) level
  | .element => "value"
  | .elementList => singletonList "value"
  | .picked slot => picked false (Layout.slotName slot)
  | .pickedList slot => picked true (Layout.slotName slot)
  | .converted descriptor value => converted descriptor (write level value)
  | .record entries => objectLiteral (writeEntries (level + 1) entries) level
  | .typed names entries => typedObject names.ts (writeMembers (level + 1) entries) level
  | .serialized value => serialized (write level value)
  | .mapped read element absentIfEmpty body =>
    mapped (many read) (write (level + 2) body) element.ts absentIfEmpty level
  | .broadcast reads element absentIfEmpty body =>
    broadcast (reads.map fun (slot, read) => (Layout.slotName slot, many read)) (write (level + 2) body)
      element.ts absentIfEmpty level
  | .eachEntry root body => eachEntry root (write (level + 2) body)
  | .principal members => principal (writeEntries (level + 1) members) level
  | .noPrincipals => emptyPrincipals
  | .missingMapping property => missingMapping property
  | .unsourced type => unsourced type
  | .parsed type source => parsed type (sourceLiteral source)
  | .defaulted isCollection fallback value => withDefault isCollection (write level value) fallback
  | .validated property value =>
    validated property.type property.name (write level value) property.constraints

def writeEntries (level : Nat) : List (String × Plan) → List (String × String)
  | [] => []
  | (key, value) :: rest => (key, write level value) :: writeEntries level rest

def writeMembers (level : Nat) : List (PropertyInfo × Plan) → List (String × String)
  | [] => []
  | (property, value) :: rest => (property.name, write level value) :: writeMembers level rest

end

theorem writeEntries_eq (level : Nat) (entries : List (String × Plan)) :
    writeEntries level entries = entries.map fun (key, value) => (key, write level value) := by
  induction entries with
  | nil => rfl
  | cons entry rest ih => rw [writeEntries, ih, List.map_cons]

theorem writeMembers_eq (level : Nat) (entries : List (PropertyInfo × Plan)) :
    writeMembers level entries = entries.map fun (property, value) => (property.name, write level value) := by
  induction entries with
  | nil => rfl
  | cons entry rest ih => rw [writeMembers, ih, List.map_cons]

def expression (plan : Plan) : String := write plan.baseLevel plan

end ProfileConnector.TypeScript
