import ProfileConnector.Catalog.Basic
import ProfileConnector.Value.Printer
import ProfileConnector.Value.Reader

/-!
Catalog documents. A document is a dynamic value and its names may be any values; texts, lists and
records can all be run through, a record by its keys. The types of a loaded document have distinct
names. A document whose names are texts is a snapshot.
-/

namespace ProfileConnector.Catalog

inductive DocumentFault where
  | missingMember
  | wrongKind
  | noMembers
  | wrongLength
  deriving DecidableEq, Repr

structure PropertyEntry where
  name : Value
  declaredType : Value
  nullable : Value

structure TypeEntry where
  name : Value
  properties : List PropertyEntry
  base : Value

structure Document where
  types : List TypeEntry
  enums : KeyedList Text (List Value)
  stringTypes : List Value
  aliases : List (Value × Value)
  version : Value

namespace Document

def elements : Value → Except DocumentFault (List Value)
  | .list items => .ok items
  | .text t => .ok (t.map fun point => .text [point])
  | .record members => .ok (members.map fun (key, _) => .text key)
  | _ => .error .wrongKind

def isKey : Value → Bool
  | .list _ => false
  | .record _ => false
  | _ => true

/-- A member of a record that must be there; other values have no named members. -/
def memberOf (key : String) : Value → Except DocumentFault Value
  | .record members =>
    match KeyedList.get? (Text.ofString key) members with
    | some value => .ok value
    | none => .error .missingMember
  | _ => .error .wrongKind

def members : Value → Except DocumentFault (List (Text × Value))
  | .record members => .ok members
  | _ => .error .noMembers

def memberOr (key : String) (default : Value) (members : List (Text × Value)) : Value :=
  (KeyedList.get? (Text.ofString key) members).getD default

def property (entry : Value) : Except DocumentFault PropertyEntry := do
  let name ← memberOf "name" entry
  let declaredType ← memberOf "type" entry
  pure ⟨name, declaredType, memberOr "nullable" (.bool true) (← members entry)⟩

def type (entry : Value) : Except DocumentFault TypeEntry := do
  let listed := memberOr "properties" (.list []) (← members entry)
  let properties ← (← elements listed).mapM property
  let name ← memberOf "name" entry
  pure ⟨name, properties, memberOr "baseType" .null (← members entry)⟩

def pair (entry : Value) : Except DocumentFault (Value × Value) := do
  match ← elements entry with
  | [key, value] => if isKey key then pure (key, value) else .error .wrongKind
  | _ => .error .wrongLength

def aliasPairs : Value → Except DocumentFault (List (Value × Value))
  | .record members => .ok (members.map fun (key, value) => (.text key, value))
  | value => do (← elements value).mapM pair

def keys (entries : List Value) : Except DocumentFault (List Value) :=
  if entries.all isKey then .ok entries else .error .wrongKind

/-- Reads a document; the first fault counts. -/
def read (value : Value) : Except DocumentFault Document := do
  let sections ← members value
  let types ← (← elements (memberOr "types" (.list []) sections)).mapM type
  let enums ← (← members (memberOr "enums" (.record []) sections)).mapM fun (name, listed) => do
    pure (name, ← elements listed)
  let stringTypes ← keys (← elements (memberOr "stringTypes" (.list []) sections))
  let aliases ← aliasPairs (memberOr "aliases" (.record []) sections)
  pure ⟨types, enums, stringTypes, aliases, memberOr "version" .null sections⟩

/-- Keys are one key if they are one text, or one number, or both null. -/
def sameKey : Value → Value → Bool
  | .text a, .text b => a == b
  | .null, .null => true
  | a, b =>
    match a.magnitude?, b.magnitude? with
    | some (some x), some (some y) => !x.lt y && !y.lt x
    | some none, some none => true
    | _, _ => false

def keyText : Value → String
  | .text t => t.toString
  | .int n => toString n
  | .float x => x.text
  | .bool b => if b then "True" else "False"
  | _ => "None"

end Document

/-- Why a catalog could not be loaded. The last two are not among the catalog's own faults. -/
inductive LoadFault where
  | unreadable
  | malformed (fault : DocumentFault)
  | duplicate (fault : CatalogFault)
  | notAKey
  | tooDeep
  deriving DecidableEq, Repr

namespace Document

/-- The first name that cannot be a key or comes again. -/
def nameFault? (seen : List Value) : List Value → Option LoadFault
  | [] => none
  | name :: rest =>
    if !isKey name then some .notAKey
    else if seen.any (sameKey name) then some (.duplicate (.duplicateType (keyText name)))
    else nameFault? (name :: seen) rest

def load (text : Option (List Char)) : Except LoadFault Document := do
  let cs ← match text with
    | some cs => pure cs
    | none => .error .unreadable
  let value ← match Value.ofChars? cs with
    | .ok value => pure value
    | .error .malformed => .error .unreadable
    | .error .tooDeep => .error .tooDeep
  let document ← match read value with
    | .ok document => pure document
    | .error .wrongLength => .error .unreadable
    | .error fault => .error (.malformed fault)
  match nameFault? [] (document.types.map (·.name)) with
  | some fault => .error fault
  | none => pure document

def isStringLike (document : Document) (declared : String) : Bool :=
  document.stringTypes.any (sameKey (Value.ofString (DeclaredType.parse declared).element))

def text? : Value → Option String
  | .text t => some t.toString
  | _ => none

def bool? : Value → Option Bool
  | .bool b => some b
  | _ => none

def optionalText? : Value → Option (Option String)
  | .null => some none
  | value => (text? value).map some

def snapshot? (document : Document) : Option Snapshot := do
  let types ← document.types.mapM fun entry => do
    let properties ← entry.properties.mapM fun property => do
      pure (⟨← text? property.name, ← text? property.declaredType, ← bool? property.nullable⟩ : CatalogProperty)
    pure (⟨← text? entry.name, properties, ← optionalText? entry.base⟩ : CatalogType)
  let enums ← document.enums.mapM fun (name, listed) => do pure (name.toString, ← listed.mapM text?)
  let stringTypes ← document.stringTypes.mapM text?
  let aliases ← document.aliases.mapM fun (name, target) => do pure (← text? name, ← text? target)
  pure ⟨types, enums, stringTypes, KeyedList.ofPairs aliases, document.version⟩

end Document

end ProfileConnector.Catalog
