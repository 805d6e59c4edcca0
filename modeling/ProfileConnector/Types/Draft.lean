import ProfileConnector.Types.Descriptor

/-!
Derived types as they are drafted. A draft remembers the variable names it has given away. A key that
is new gets its variable name first; then the subtree below it is drafted, and only then the field is
added. A field that is there tells the type below it by its declared type.
-/

namespace ProfileConnector

structure Draft where
  fields : List DerivedField := []
  taken : List String := []
  deriving DecidableEq, Repr

abbrev Drafts := KeyedList String Draft

def DerivedField.referredType? (field : DerivedField) : Option String :=
  if field.declaredType = "Edm.String" then none else some (DeclaredType.parse field.declaredType).localName

namespace Drafts

def draftOf (drafts : Drafts) (name : String) : Draft := (KeyedList.get? name drafts).getD {}

def field? (drafts : Drafts) (name key : String) : Option DerivedField :=
  (drafts.draftOf name).fields.find? fun field => field.name == key

def freshFor (drafts : Drafts) (name key : String) : String :=
  Identifier.freshVariable key (drafts.draftOf name).taken

def opened (drafts : Drafts) (name : String) : Drafts := KeyedList.put name (drafts.draftOf name) drafts

def taking (drafts : Drafts) (name variableName : String) : Drafts :=
  let draft := drafts.draftOf name
  KeyedList.put name { draft with taken := draft.taken ++ [variableName] } drafts

def adding (drafts : Drafts) (name : String) (field : DerivedField) : Drafts :=
  let draft := drafts.draftOf name
  KeyedList.put name { draft with fields := draft.fields ++ [field] } drafts

mutual

def visit (drafts : Drafts) (name : String) : List (String × PathTree) → Drafts
  | [] => drafts
  | (key, child) :: rest => visit (visitChild drafts name key child) name rest

def visitChild (drafts : Drafts) (name key : String) : PathTree → Drafts
  | .leaf _ =>
    match drafts.field? name key with
    | some _ => drafts
    | none =>
      let variableName := drafts.freshFor name key
      (drafts.taking name variableName).adding name ⟨key, variableName, .text⟩
  | .node children =>
    match drafts.field? name key with
    | some field =>
      match field.referredType? with
      | some type => visit (drafts.opened type) type children
      | none => drafts
    | none =>
      let variableName := drafts.freshFor name key
      let type := DerivedFields.nestedName name key
      (visit ((drafts.taking name variableName).opened type) type children).adding name
        ⟨key, variableName, .nested type⟩

end

def extended (drafts : Drafts) (name : String) (tree : PathTree.Branches) : Drafts :=
  visit (drafts.opened name) name tree

def toTypes (drafts : Drafts) : List DerivedType := drafts.map fun (name, draft) => ⟨name, draft.fields⟩

end Drafts

structure Drafting where
  drafts : Drafts := []
  frozen : Option (List DerivedType) := none
  deriving DecidableEq, Repr

inductive SynthesisCall where
  | synthesize (name : String) (fields : List FieldMapping)
  | freeze
  deriving DecidableEq, Repr

inductive SynthesisAnswer where
  | type (type : DerivedType)
  | types (types : List DerivedType)
  | refused (fault : SynthesisFault)
  deriving DecidableEq, Repr

namespace Drafting

def synthesize (drafting : Drafting) (name : String) (fields : List FieldMapping) : SynthesisAnswer × Drafting :=
  match drafting.frozen with
  | some _ => (.refused (.frozen name), drafting)
  | none =>
    let drafts := drafting.drafts.extended name (PathTree.build fields)
    (.type ⟨name, (drafts.draftOf name).fields⟩, { drafting with drafts := drafts })

def freeze (drafting : Drafting) : SynthesisAnswer × Drafting :=
  match drafting.frozen with
  | some types => (.types types, drafting)
  | none =>
    let types := drafting.drafts.toTypes
    (.types types, { drafting with frozen := some types })

def answer (drafting : Drafting) : SynthesisCall → SynthesisAnswer × Drafting
  | .synthesize name fields => drafting.synthesize name fields
  | .freeze => drafting.freeze

def after (drafting : Drafting) (calls : List SynthesisCall) : Drafting :=
  calls.foldl (fun drafting call => (drafting.answer call).2) drafting

end Drafting

namespace Synthesis

/-- A call that is refused changes nothing. -/
def called (synthesis : Synthesis) : SynthesisCall → Synthesis
  | .synthesize name fields => (synthesis.synthesize name (PathTree.build fields)).toOption.getD synthesis
  | .freeze => synthesis.freeze

def after (synthesis : Synthesis) (calls : List SynthesisCall) : Synthesis := calls.foldl called synthesis

end Synthesis

end ProfileConnector
