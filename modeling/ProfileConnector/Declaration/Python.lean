import ProfileConnector.Text.Quoted
import ProfileConnector.Types.Bundle

/-!
Declarations of a bundle in Python. An enumeration is a literal type with the set of its values and a
test; a template is a dictionary type with the inherited fields and its own.
-/

namespace ProfileConnector.Python

open Text (quote)

structure EnumDeclaration where
  typeName : String
  valuesName : String
  guardName : String
  members : List String
  deriving DecidableEq, Repr

structure DictionaryDeclaration where
  typeName : String
  entries : List (String × String)
  deriving DecidableEq, Repr

structure Declarations where
  enums : List EnumDeclaration
  dictionaries : List DictionaryDeclaration
  deriving DecidableEq, Repr

def constantName (name : String) : String :=
  String.ofList ((Identifier.snakeName name).toList.map Char.toUpper)

namespace EnumDeclaration

def ofTemplate (template : EnumTemplate) : EnumDeclaration where
  typeName := template.names.py
  valuesName := "_" ++ constantName template.name ++ "_VALUES"
  guardName := template.guardName
  members := template.members

def write (declaration : EnumDeclaration) : String :=
  let members := Layout.items (declaration.members.map quote)
  let values := declaration.valuesName
  Layout.lines [
    s!"{declaration.typeName} = Literal[{members}]",
    s!"{values} = frozenset(\x7b{members}\x7d)",
    "",
    "",
    s!"def {declaration.guardName}(value):",
    s!"    return isinstance(value, str) and value in {values}"]

end EnumDeclaration

namespace DictionaryDeclaration

def ofTemplate (template : TypeTemplate) : DictionaryDeclaration where
  typeName := template.names.py
  entries := (template.inherited ++ template.fields).map fun field => (field.name, field.descriptor.names.py)

def write (declaration : DictionaryDeclaration) : String :=
  let name := declaration.typeName
  if declaration.entries.isEmpty then s!"{name} = TypedDict({quote name}, \x7b\x7d, total=False)"
  else
    Layout.lines <|
      [s!"{name} = TypedDict(", s!"    {quote name},", "    \x7b"] ++
      (declaration.entries.map fun (key, type) => s!"        {quote key}: {quote type},") ++
      ["    \x7d,", "    total=False,", ")"]

end DictionaryDeclaration

namespace Declarations

def ofBundle (bundle : Bundle) : Declarations where
  enums := bundle.enums.map .ofTemplate
  dictionaries := bundle.templates.map .ofTemplate

/-- Type names that are taken by constants of the language. -/
def constants : List String := ["None", "True", "False"]

/-- A literal type needs a member, and no declaration may be named like a constant. -/
def isReadable (declarations : Declarations) : Bool :=
  declarations.enums.all (fun declaration =>
    !declaration.members.isEmpty && !constants.contains declaration.typeName) &&
  declarations.dictionaries.all fun declaration => !constants.contains declaration.typeName

def imports : String := "from typing import Literal, TypedDict"

def write (declarations : Declarations) : String :=
  let blocks :=
    imports :: declarations.enums.map (·.write) ++ declarations.dictionaries.map (·.write)
  "\n\n\n".intercalate blocks ++ "\n"

end Declarations

end ProfileConnector.Python
