import ProfileConnector.Schema.Reader
import ProfileConnector.Text.Small

/-!
Targets and the settings of a generation run.
-/

namespace ProfileConnector

inductive Target where
  | typescript | csharp | python
  deriving DecidableEq, Repr

namespace Target

def all : List Target := [.csharp, .python, .typescript]

def name : Target → String
  | .typescript => "typescript"
  | .csharp => "csharp"
  | .python => "python"

def plainName (text : String) : String := Text.smallString (Text.trimString text)

def ofName? (text : String) : Option Target := all.find? fun target => target.name == plainName text

end Target

structure Settings where
  targets : List String := ["typescript", "csharp"]
  inputFormat : Option InputFormat := none
  rootFacet : String := "itemFacet"
  catalogPath : Option String := none

namespace Settings

/-- Target names in plain form, each once, blank ones left out. -/
def plainTargets (names : List String) : List String :=
  ((names.map Target.plainName).filter (!·.isEmpty)).eraseDups

/-- The separators that a file path starts with: two stay two, more become one. -/
def pathRoot : List Char → String
  | '/' :: '/' :: '/' :: _ => "/"
  | '/' :: '/' :: _ => "//"
  | '/' :: _ => "/"
  | _ => ""

def plainPath (path : String) : String :=
  let parts := ((path.toList.splitOn '/').map String.ofList).filter fun part =>
    !part.isEmpty && part != "."
  let plain := pathRoot path.toList ++ "/".intercalate parts
  if plain.isEmpty then "." else plain

def filePath : Schema.Decoder String
  | .text t => .ok (plainPath t.toString)
  | _ => .fault .notAFilePath

def names : Schema.Decoder (List String)
  | .list items => (Schema.elements Schema.text 0 items).map plainTargets
  | _ => .fault .notList

def decode : Schema.Decoder Settings := Schema.record fun members =>
  Settings.mk
    <$> Schema.member ["targets"] names ["typescript", "csharp"] members
    <*> Schema.member ["input_format"] (Schema.optional (Schema.choice InputFormat.ofName?)) none members
    <*> Schema.member ["root_facet_type"] Schema.text "itemFacet" members
    <*> Schema.member ["catalog_path"] (Schema.optional filePath) none members

end Settings

end ProfileConnector
