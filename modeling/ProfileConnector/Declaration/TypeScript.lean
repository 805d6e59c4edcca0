import ProfileConnector.Text.Quoted
import ProfileConnector.Types.Bundle

/-!
Declarations of a bundle in TypeScript. Every enumeration is a list of values with a type and a test,
every template a type and a function that lists what is wrong with a value of it.
-/

namespace ProfileConnector.TypeScript

open Text (quote)

structure EnumDeclaration where
  valuesName : String
  typeName : String
  members : List String
  deriving DecidableEq, Repr

structure TypeMember where
  name : String
  isOptional : Bool
  type : String
  deriving DecidableEq, Repr

structure TypeDeclaration where
  typeName : String
  base : Option String
  members : List TypeMember
  deriving DecidableEq, Repr

structure FieldCheck where
  name : String
  constant : String
  guard : Guard
  expected : String
  element : Option (Guard × String)
  isOptional : Bool
  deriving DecidableEq, Repr

structure Validator where
  typeName : String
  rootPath : String
  checks : List FieldCheck
  deriving DecidableEq, Repr

structure Declarations where
  enums : List EnumDeclaration
  types : List TypeDeclaration
  validators : List Validator
  deriving DecidableEq, Repr

namespace EnumDeclaration

def ofTemplate (template : EnumTemplate) : EnumDeclaration :=
  ⟨template.name ++ "Values", template.names.ts, template.members⟩

def write (declaration : EnumDeclaration) : String :=
  let values := declaration.valuesName
  let type := declaration.typeName
  Layout.lines [
    s!"const {values} = {Layout.list (declaration.members.map quote)} as const;",
    s!"export type {type} = (typeof {values})[number];",
    s!"export const is{type} = (value: unknown): value is {type} =>",
    s!"  typeof value === \"string\" && ({values} as readonly string[]).includes(value);"]

end EnumDeclaration

namespace TypeMember

def ofField (field : DeclaredField) : TypeMember :=
  ⟨field.name, field.isOptional, field.descriptor.names.ts⟩

/-- Identifiers stand for themselves, all other names are quoted. -/
def key (member : TypeMember) : String :=
  if Identifier.isPlain member.name then member.name else quote member.name

def write (member : TypeMember) : String :=
  let mark := if member.isOptional then "?" else ""
  s!"  {member.key}{mark}: {member.type};"

end TypeMember

namespace TypeDeclaration

def ofTemplate (template : TypeTemplate) : TypeDeclaration where
  typeName := template.names.ts
  base := template.baseNames.map (·.ts)
  members := template.fields.map .ofField

def write (declaration : TypeDeclaration) : String :=
  let base := match declaration.base with
    | some name => name ++ " & "
    | none => ""
  let body :=
    if declaration.members.isEmpty then "\x7b\x7d"
    else "\x7b\n" ++ Layout.lines (declaration.members.map (·.write)) ++ "\n\x7d"
  s!"export type {declaration.typeName} = {base}{body};"

end TypeDeclaration

namespace FieldCheck

def ofField (field : DeclaredField) : FieldCheck where
  name := field.name
  constant := field.variableName
  guard := field.descriptor.guard
  expected := field.descriptor.expected
  element :=
    if field.descriptor.isCollection then
      some (field.descriptor.element.guard, field.descriptor.element.expected)
    else none
  isOptional := field.isOptional

/-- The template literal of a message about the field: its path, a place within it, and a complaint. -/
def message (check : FieldCheck) (place complaint : String) : String :=
  s!"`$\x7bpath\x7d.{check.name}{place} {complaint}`"

def typeMessage (check : FieldCheck) : String := check.message "" ("must be " ++ check.expected)

def elementMessage (check : FieldCheck) (expected : String) : String :=
  check.message "[$\x7bindex\x7d]" ("must be " ++ expected)

def requiredMessage (check : FieldCheck) : String := check.message "" "is required"

def writeElements (check : FieldCheck) : List String :=
  match check.element with
  | none => []
  | some (guard, expected) =>
    let test := guard.write "entry"
    [ "    \x7d else \x7b",
      s!"      {check.constant}.forEach((entry, index) => \x7b",
      s!"        if (!({test})) errors.push({check.elementMessage expected});",
      "      \x7d);"]

def write (check : FieldCheck) : List String :=
  let constant := check.constant
  [ s!"  const {constant} = input[{quote check.name}];",
    s!"  if ({constant} !== undefined && {constant} !== null) \x7b",
    s!"    if (!({check.guard.write constant})) \x7b",
    s!"      errors.push({check.typeMessage});"] ++
  check.writeElements ++
  ["    \x7d"] ++
  (if check.isOptional then []
    else ["  \x7d else \x7b", s!"    errors.push({check.requiredMessage});"]) ++
  ["  \x7d"]

end FieldCheck

namespace Validator

def ofTemplate (template : TypeTemplate) : Validator where
  typeName := template.names.ts
  rootPath := template.name
  checks := (template.inherited ++ template.fields).map .ofField

def reserved : List String := ["input", "path", "errors"]

def write (validator : Validator) : String :=
  Layout.lines <|
    [ s!"export function validate{validator.typeName}(input: unknown, path = {quote validator.rootPath}): string[] \x7b",
      "  if (!isRecord(input)) return [`$\x7bpath\x7d must be an object`];",
      "  const errors: string[] = [];"] ++
    validator.checks.flatMap (·.write) ++
    ["  return errors;", "\x7d"]

end Validator

namespace Declarations

def ofBundle (bundle : Bundle) : Declarations where
  enums := bundle.enums.map .ofTemplate
  types := bundle.templates.map .ofTemplate
  validators := bundle.templates.map .ofTemplate

def recordTest : String := Layout.lines [
  "export const isRecord = (value: unknown): value is Record<string, unknown> =>",
  "  typeof value === \"object\" && value !== null && !Array.isArray(value);"]

def write (declarations : Declarations) : String :=
  let blocks :=
    recordTest :: declarations.enums.map (·.write) ++ declarations.types.map (·.write) ++
      declarations.validators.map (·.write)
  "\n\n".intercalate blocks ++ "\n"

end Declarations

end ProfileConnector.TypeScript
