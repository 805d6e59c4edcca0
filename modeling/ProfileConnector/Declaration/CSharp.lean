import ProfileConnector.Target.CSharp

/-!
Declarations of a bundle in C#. A class declares the fields of its own and inherits the others from
its base class; a member that would be named like its class is renamed as it is where a value of the
class is constructed.
-/

namespace ProfileConnector.CSharp

open Text (quote)

structure EnumDeclaration where
  typeName : String
  members : List String
  deriving DecidableEq, Repr

structure ClassMember where
  key : String
  memberName : String
  type : String
  isNullable : Bool
  deriving DecidableEq, Repr

structure ClassDeclaration where
  className : String
  base : Option String
  members : List ClassMember
  deriving DecidableEq, Repr

structure Declarations where
  enums : List EnumDeclaration
  classes : List ClassDeclaration
  deriving DecidableEq, Repr

namespace EnumDeclaration

def ofTemplate (template : EnumTemplate) : EnumDeclaration := ⟨template.names.cs, template.members⟩

def writeMember (member : String) : List String := [
  s!"    [JsonStringEnumMemberName({quote member})]",
  s!"    {Identifier.memberName member},"]

def write (declaration : EnumDeclaration) : String :=
  Layout.lines <|
    [ "[JsonConverter(typeof(JsonStringEnumConverter))]",
      s!"public enum {declaration.typeName}",
      "\x7b"] ++
    declaration.members.flatMap writeMember ++
    ["\x7d"]

end EnumDeclaration

namespace ClassMember

def valueTypes : List String := ["int", "long", "double", "bool", "DateTimeOffset"]

def ofField (className : String) (field : DeclaredField) : ClassMember where
  key := field.name
  memberName := memberNameIn className field.memberName
  type := field.descriptor.names.cs
  isNullable := field.isOptional || !valueTypes.contains field.descriptor.names.cs

def write (member : ClassMember) : List String :=
  let mark := if member.isNullable then "?" else ""
  [ s!"    [JsonPropertyName({quote member.key})]",
    s!"    public {member.type}{mark} {member.memberName} \x7b get; set; \x7d"]

end ClassMember

namespace ClassDeclaration

def ofTemplate (template : TypeTemplate) : ClassDeclaration where
  className := template.names.cs
  base := template.baseNames.map (·.cs)
  members := template.fields.map (.ofField template.names.cs)

def write (declaration : ClassDeclaration) : String :=
  let base := match declaration.base with
    | some name => " : " ++ name
    | none => ""
  Layout.lines <|
    [s!"public class {declaration.className}{base}", "\x7b"] ++
    [""].intercalate (declaration.members.map (·.write)) ++
    ["\x7d"]

end ClassDeclaration

namespace Declarations

def ofBundle (bundle : Bundle) : Declarations where
  enums := bundle.enums.map .ofTemplate
  classes := bundle.templates.map .ofTemplate

def imports : String := Layout.lines [
  "using System.Collections.Generic;",
  "using System.Text.Json.Serialization;"]

def write (declarations : Declarations) : String :=
  let blocks :=
    imports :: declarations.enums.map (·.write) ++ declarations.classes.map (·.write)
  "\n\n".intercalate blocks ++ "\n"

end Declarations

end ProfileConnector.CSharp
