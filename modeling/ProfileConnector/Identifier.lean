import ProfileConnector.Text.Blank
import ProfileConnector.Text.Capital

/-!
Identifiers made from names. A name falls apart into words; the words are capitalized and joined.
Variable names start with a small letter and get the first free number when they are taken.
-/

namespace ProfileConnector.Identifier

open Text (isAsciiLetter isAsciiDigit)

def isAsciiWordChar (c : Char) : Bool := isAsciiLetter c || isAsciiDigit c

def isStart (c : Char) : Bool := isAsciiLetter c || c == '_'

def isPart (c : Char) : Bool := isAsciiWordChar c || c == '_'

/-- A letter or underscore, then letters, digits and underscores. -/
def isIdentifier : List Char → Bool
  | [] => false
  | c :: rest => isStart c && rest.all isPart

def withoutFinalNewline (cs : List Char) : List Char :=
  if cs.getLast? = some '\n' then cs.dropLast else cs

/-- An identifier, or an identifier and a final newline. -/
def isPlain (name : String) : Bool :=
  isIdentifier name.toList || isIdentifier (withoutFinalNewline name.toList)

/-- The words of a name: the longest runs of characters that do not separate. -/
def words (separates : Char → Bool) : List Char → List (List Char)
  | [] => []
  | c :: rest =>
    if separates c then words separates rest
    else
      match rest, words separates rest with
      | next :: _, word :: others => if separates next then [c] :: word :: others else (c :: word) :: others
      | _, others => [c] :: others

def upperFirst : List Char → List Char
  | [] => []
  | c :: rest => c.toUpper :: rest

def lowerFirst : List Char → List Char
  | [] => []
  | c :: rest => c.toLower :: rest

def typeChars (name : List Char) : List Char :=
  match (words (fun c => !isAsciiWordChar c) name).flatMap upperFirst with
  | [] => "Item".toList
  | c :: rest => if isStart c then c :: rest else '_' :: c :: rest

/-- The type name made from a name: its runs of ASCII letters and digits, capitalized. -/
def typeName (name : String) : String := String.ofList (typeChars name.toList)

/-- The name with its first character in capital form. -/
def memberName (name : String) : String :=
  if name.isEmpty then "Value" else String.ofList (Text.capitalized name.toList)

def separatesLoosely (c : Char) : Bool := c == '_' || c == '-' || Text.isBlank c

/-- The parts of a name between underscores, dashes and blanks, capitalized. -/
def looseName (name : String) : String :=
  match (words separatesLoosely name.toList).flatMap Text.capitalized with
  | [] => "Item"
  | cs => String.ofList cs

/-- An underscore before every capital that follows a small letter or a digit. -/
def underscored : List Char → List Char
  | c :: next :: rest =>
    if (('a' ≤ c && c ≤ 'z') || isAsciiDigit c) && ('A' ≤ next && next ≤ 'Z') then
      c :: '_' :: underscored (next :: rest)
    else
      c :: underscored (next :: rest)
  | cs => cs

def snakeName (name : String) : String :=
  match ((underscored (typeChars name.toList)).map Char.toLower).dropWhile (· == '_') with
  | [] => "value"
  | cs => String.ofList cs

/-- The `k`th candidate for a variable name: the base name alone, then the base name with a number. -/
def candidate (base : String) : Nat → String
  | 0 => base
  | k + 1 => base ++ toString (k + 1)

/-- The first candidate that is free; among one more candidates than names in use there is one. -/
def firstFree (base : String) (used : List String) : String :=
  match (List.range (used.length + 1)).find? fun k => !used.contains (candidate base k) with
  | some k => candidate base k
  | none => base

def freshVariable (name : String) (used : List String) : String :=
  firstFree (String.ofList (lowerFirst (typeChars name.toList))) used

def freshVariables : List String → List String → List String × List String
  | [], used => ([], used)
  | name :: rest, used =>
    let variableName := freshVariable name used
    let (others, final) := freshVariables rest (variableName :: used)
    (variableName :: others, final)

example : typeName "skill proficiency" = "SkillProficiency" ∧ typeName "3d" = "_3d" ∧ typeName "" = "Item" := by
  decide
example : snakeName "SkillLevel2X" = "skill_level2_x" ∧ isPlain "ab\n" = true := by decide
example : freshVariable "First name" ["firstName"] = "firstName1" := by decide

end ProfileConnector.Identifier
