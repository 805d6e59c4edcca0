import ProfileConnector.Generation
import ProfileConnector.Proofs.Outcome
import ProfileConnector.Proofs.Row.Texts
import ProfileConnector.Proofs.Script.Writing

/-!
Keys of principal records. A record assigns its type and then one value for every mapping whose path has a last
segment; in C# a key with a member of its own is assigned there, and all others go into the additional data. Keys
are taken as they come, so nothing is assigned twice just if they are distinct.
-/

namespace ProfileConnector

open Outcome

namespace PrincipalEntry

/-! ## Keys -/

/-- The last segments of the paths that have one, as they come; without mappings the name of the user. -/
def keys (fields : Option (List FieldMapping)) (fallback : Source) : List String :=
  match fields.getD [] with
  | [] => if fallback.isEmpty then [] else ["upn"]
  | mapped => (mapped.map fun mapping => keyOf mapping.path).filter (!·.isEmpty)

theorem keys_of_unmapped {fields : Option (List FieldMapping)} (unmapped : fields.getD [] = []) (fallback : Source) :
    keys fields fallback = if fallback.isEmpty then [] else ["upn"] := by
  rw [keys, unmapped]

theorem keys_of_mapped {fields : Option (List FieldMapping)} (mapped : fields.getD [] ≠ []) (fallback : Source) :
    keys fields fallback = ((fields.getD []).map fun mapping => keyOf mapping.path).filter (!·.isEmpty) := by
  obtain ⟨first, rest, shape⟩ := List.exists_cons_of_ne_nil mapped
  rw [keys, shape]

theorem keys_ofFields (fields : Option (List FieldMapping)) (fallback : Source) :
    (ofFields fields fallback).map (·.key) = keys fields fallback := by
  by_cases unmapped : fields.getD [] = []
  · simp only [keys_of_unmapped unmapped, ofFields, unmapped]
    split <;> rfl
  · obtain ⟨first, rest, shape⟩ := List.exists_cons_of_ne_nil unmapped
    rw [keys_of_mapped unmapped, ofFields, shape]
    simp only [List.filter_map, List.map_map, Function.comp_def]

/-- Keys are segments, and there is one name for user principal names. -/
structure Plain (key : String) : Prop where
  segment : '.' ∉ key.toList
  short : key ≠ "userPrincipalName"

theorem plain_keyOf (path : String) : Plain (keyOf path) := by
  unfold keyOf
  split
  · exact ⟨by decide, by decide⟩
  · rename_i other
    refine ⟨?_, other⟩
    have filled : path.toList.splitOn '.' ≠ [] := List.splitOn_ne_nil '.' path.toList
    rw [lastSegment, String.toList_ofList, List.getLastD_eq_getLast?, List.getLast?_eq_some_getLast filled]
    exact Row.not_mem_of_mem_splitOn (List.getLast_mem filled)

theorem plain_of_mem_keys {fields : Option (List FieldMapping)} {fallback : Source} {key : String}
    (member : key ∈ keys fields fallback) : Plain key := by
  by_cases unmapped : fields.getD [] = []
  · rw [keys_of_unmapped unmapped] at member
    split at member
    · cases member
    · rw [List.mem_singleton.mp member]
      exact ⟨by decide, by decide⟩
  · rw [keys_of_mapped unmapped] at member
    obtain ⟨mapping, _, rfl⟩ := List.mem_map.mp (List.mem_of_mem_filter member)
    exact plain_keyOf mapping.path

theorem mem_principalMembers {key name : String} (known : member? key = some name) :
    name ∈ CSharp.principalMembers := by
  have each : ∀ entry ∈ knownMembers, entry.2 ∈ CSharp.principalMembers := by decide
  exact each _ (KeyedList.mem_of_get? known)

theorem not_mem_members {name : String} (foreign : name ∉ CSharp.principalMembers) (keys : List String) :
    name ∉ keys.filterMap member? := by
  intro member
  obtain ⟨key, _, known⟩ := List.mem_filterMap.mp member
  exact foreign (mem_principalMembers known)

theorem member?_inj {first second name : String} (plain : Plain first) (other : Plain second)
    (known : member? first = some name) (same : member? second = some name) : first = second := by
  have apart : ∀ entry ∈ knownMembers, ∀ next ∈ knownMembers, entry.1 ≠ "userPrincipalName" →
      next.1 ≠ "userPrincipalName" → entry.2 = next.2 → entry.1 = next.1 := by decide
  exact apart _ (KeyedList.mem_of_get? known) _ (KeyedList.mem_of_get? same) plain.short other.short rfl

/-! ## Assigned names -/

/-- The name for the type of a record. -/
def typeName : Target → String
  | .typescript | .python => "@odata.type"
  | .csharp => "OdataType"

/-- What a record with the keys assigns behind its type: keys or members of its own, and those of its additional data. -/
def assignedKeys (keys : List String) : Target → List String × List String
  | .typescript | .python => (keys, [])
  | .csharp =>
    let others := keys.filter fun key => (member? key).isNone
    (keys.filterMap member? ++ (if others.isEmpty then [] else ["AdditionalData"]), others)

def assigned (keys : List String) (target : Target) : List String × List String :=
  (typeName target :: (assignedKeys keys target).1, (assignedKeys keys target).2)

theorem nodup_members_iff {keys : List String} (plain : ∀ key ∈ keys, Plain key) :
    ((keys.filterMap member?).Nodup ∧ (keys.filter fun key => (member? key).isNone).Nodup) ↔ keys.Nodup := by
  induction keys with
  | nil => simp
  | cons key keys ih =>
    obtain ⟨own, others⟩ := List.forall_mem_cons.mp plain
    rw [List.nodup_cons, ← ih others, List.filterMap_cons, List.filter_cons]
    cases known : member? key with
    | none =>
      have inside : key ∈ keys.filter (fun key => (member? key).isNone) ↔ key ∈ keys := by simp [known]
      simp only [Option.isNone_none, if_true, List.nodup_cons, inside]
      exact and_left_comm
    | some name =>
      have inside : name ∈ keys.filterMap member? ↔ key ∈ keys := by
        rw [List.mem_filterMap]
        constructor
        · rintro ⟨other, listed, same⟩
          rwa [member?_inj own (others other listed) known same]
        · exact fun listed => ⟨key, listed, known⟩
      simp only [Option.isNone_some, Bool.false_eq_true, if_false, List.nodup_cons, inside, and_assoc]

theorem typeName_not_mem {keys : List String} (plain : ∀ key ∈ keys, Plain key) (target : Target) :
    typeName target ∉ (assignedKeys keys target).1 := by
  have typed : "@odata.type" ∉ keys := fun member => (plain _ member).segment (by decide)
  cases target with
  | typescript => exact typed
  | python => exact typed
  | csharp =>
    have own : "OdataType" ∉ keys.filterMap member? := not_mem_members (by decide) keys
    simp only [assignedKeys, typeName, List.mem_append, not_or]
    refine ⟨own, ?_⟩
    split <;> simp

theorem nodup_assignedKeys_iff {keys : List String} (plain : ∀ key ∈ keys, Plain key) (target : Target) :
    (assignedKeys keys target).1.Nodup ∧ (assignedKeys keys target).2.Nodup ↔ keys.Nodup := by
  cases target with
  | typescript => exact and_iff_left List.nodup_nil
  | python => exact and_iff_left List.nodup_nil
  | csharp =>
    have last : "AdditionalData" ∉ keys.filterMap member? := not_mem_members (by decide) keys
    rw [← nodup_members_iff plain]
    refine and_congr_left fun _ => ?_
    simp only [assignedKeys]
    split
    · rw [List.append_nil]
    · rw [(List.perm_append_singleton _ _).nodup_iff, List.nodup_cons, and_iff_right last]

theorem nodup_assigned_iff {keys : List String} (plain : ∀ key ∈ keys, Plain key) (target : Target) :
    (assigned keys target).1.Nodup ∧ (assigned keys target).2.Nodup ↔ keys.Nodup := by
  rw [assigned, List.nodup_cons, and_iff_right (typeName_not_mem plain target)]
  exact nodup_assignedKeys_iff plain target

theorem count_typeName {keys : List String} (plain : ∀ key ∈ keys, Plain key) (target : Target) :
    (assigned keys target).1.count (typeName target) = 1 := by
  rw [assigned, List.count_cons_self, List.count_eq_zero.mpr (typeName_not_mem plain target)]

end PrincipalEntry

/-! ## Records -/

namespace CSharp

def assignment (level : Nat) (entry : String × String) : String := s!"{indent (level + 1)}{entry.1} = {entry.2}"

theorem assignment_eq (level : Nat) (name value : String) :
    indent (level + 1) ++ (name ++ " = ") ++ value = assignment level (name, value) := by
  simp [assignment, toString, String.append_assoc]

def assignments (parts : List (String × String) × List (String × String)) (level : Nat) : List (String × String) :=
  ("OdataType", Text.quote PrincipalEntry.odataType) :: parts.1 ++
    (if parts.2.isEmpty then [] else [("AdditionalData", objectLiteral parts.2 (level + 1))])

theorem principal_eq (members : List (String × Option String × String)) (level : Nat) :
    principal members level =
      block "new Principal" ((assignments (principalParts members) level).map (assignment level)) level := by
  have type := assignment_eq level "OdataType" (Text.quote PrincipalEntry.odataType)
  have bag := assignment_eq level "AdditionalData" (objectLiteral (principalParts members).2 (level + 1))
  rw [assignments, List.map_append, List.map_cons, ← type]
  by_cases bare : (principalParts members).2.isEmpty = true
  · simp only [principal, if_pos bare]
    rfl
  · simp only [principal, if_neg bare, List.map_cons, ← bag]
    rfl

open PrincipalEntry in
theorem principalParts_keys (entries : List (String × String)) :
    let parts := principalParts (entries.map fun (key, value) => (key, member? key, value))
    parts.1.map Prod.fst = (entries.map Prod.fst).filterMap member? ∧
      parts.2.map Prod.fst = (entries.map Prod.fst).filter fun key => (member? key).isNone := by
  induction entries with
  | nil => exact ⟨rfl, rfl⟩
  | cons entry rest ih =>
    obtain ⟨known, others⟩ := ih
    simp only [principalParts] at known others
    simp only [principalParts, List.map_cons, List.filterMap_cons, List.filter_cons]
    cases own : member? entry.1 with
    | none => simp only [List.map_cons, Option.isNone_none, if_true, known, others, and_self]
    | some name =>
      have held : principalMembers.contains name = true := by simpa using mem_principalMembers own
      simp only [held, List.map_cons, Option.isNone_some, if_true, Bool.false_eq_true, if_false, known, others,
        and_self]

theorem keys_assignments (entries : List (String × String)) (level : Nat) :
    let parts := principalParts (entries.map fun (key, value) => (key, PrincipalEntry.member? key, value))
    ((assignments parts level).map Prod.fst, parts.2.map Prod.fst) =
      PrincipalEntry.assigned (entries.map Prod.fst) .csharp := by
  intro parts
  obtain ⟨known, others⟩ := principalParts_keys entries
  rw [PrincipalEntry.assigned, PrincipalEntry.assignedKeys, assignments, List.map_append, List.map_cons, known, others,
    ← others, List.isEmpty_map]
  cases parts.2 <;> rfl

end CSharp

/-- What a record assigns, with the written values: its own keys or members, and the keys of its additional data. -/
structure PrincipalRecord where
  own : List (String × String)
  additional : List (String × String) := []

namespace PrincipalRecord

def names (record : PrincipalRecord) : List String × List String :=
  (record.own.map Prod.fst, record.additional.map Prod.fst)

/-- Nothing is assigned more than once. -/
def Once (record : PrincipalRecord) : Prop := record.names.1.Nodup ∧ record.names.2.Nodup

def text (record : PrincipalRecord) (level : Nat) : Target → String
  | .typescript => s!"({TypeScript.objectLiteral record.own level} as Principal)"
  | .python => Term.writeDictionary level record.own
  | .csharp => CSharp.block "new Principal" (record.own.map (CSharp.assignment level)) level

end PrincipalRecord

namespace Plan

/-- The record with the members, each of them with its own expression as its value. -/
def principalRecord (members : List (String × Plan)) (level : Nat) : Target → Except WriteFault PrincipalRecord
  | .typescript =>
    .ok { own := ("@odata.type", Text.quote PrincipalEntry.odataType) :: TypeScript.writeEntries (level + 1) members }
  | .python =>
    .ok { own := ("@odata.type", Text.quote PrincipalEntry.odataType) ::
      Term.writeEntries (level + 1) (Python.entryTerms members) }
  | .csharp => do
    let entries ← CSharp.writeEntries (level + 1) members
    let parts := CSharp.principalParts (entries.map fun (key, value) => (key, PrincipalEntry.member? key, value))
    pure { own := CSharp.assignments parts level, additional := parts.2 }

theorem writeAt_principal (members : List (String × Plan)) (level : Nat) (target : Target) :
    (Plan.principal members).writeAt level target =
      (principalRecord members level target).map (·.text level target) := by
  cases target with
  | typescript => rfl
  | python => rfl
  | csharp =>
    rw [writeAt, CSharp.write, principalRecord]
    cases CSharp.writeEntries (level + 1) members with
    | error fault => rfl
    | ok entries => exact congrArg Except.ok (CSharp.principal_eq _ level)

theorem keys_writeEntries {members : List (String × Plan)} {level : Nat} {entries : List (String × String)}
    (written : CSharp.writeEntries level members = .ok entries) : entries.map Prod.fst = members.map Prod.fst := by
  induction members generalizing entries with
  | nil =>
    cases written
    rfl
  | cons entry rest ih =>
    obtain ⟨text, _, further⟩ := bind_eq_ok.mp written
    obtain ⟨others, writtenRest, result⟩ := bind_eq_ok.mp further
    cases result
    rw [List.map_cons, List.map_cons, ih writtenRest]

theorem names_principalRecord {members : List (String × Plan)} {level : Nat} {target : Target}
    {record : PrincipalRecord} (made : principalRecord members level target = .ok record) :
    record.names = PrincipalEntry.assigned (members.map Prod.fst) target := by
  cases target with
  | typescript =>
    cases made
    rw [PrincipalRecord.names, TypeScript.writeEntries_eq]
    simp [PrincipalEntry.assigned, PrincipalEntry.assignedKeys, PrincipalEntry.typeName, Function.comp_def]
  | python =>
    cases made
    rw [PrincipalRecord.names, Term.writeEntries_eq, Python.entryTerms_eq]
    simp [PrincipalEntry.assigned, PrincipalEntry.assignedKeys, PrincipalEntry.typeName, Function.comp_def]
  | csharp =>
    obtain ⟨entries, written, result⟩ := bind_eq_ok.mp made
    cases result
    exact keys_writeEntries written ▸ CSharp.keys_assignments entries level

def Leaf (plan : Plan) : Prop :=
  (∃ source, plan = .single (({} : LeafLimits).read source)) ∨ ∃ slot, plan = .picked slot

theorem Leaf.written {plan : Plan} (leaf : plan.Leaf) (level : Nat) : ∃ text, CSharp.write level plan = .ok text := by
  rcases leaf with ⟨source, rfl⟩ | ⟨slot, rfl⟩
  · exact ⟨_, rfl⟩
  · exact ⟨_, rfl⟩

theorem writeEntries_ok {members : List (String × Plan)} (leaves : ∀ entry ∈ members, entry.2.Leaf) (level : Nat) :
    ∃ entries, CSharp.writeEntries level members = .ok entries := by
  induction members with
  | nil => exact ⟨[], rfl⟩
  | cons entry rest ih =>
    obtain ⟨leaf, others⟩ := List.forall_mem_cons.mp leaves
    obtain ⟨text, own⟩ := leaf.written level
    obtain ⟨entries, written⟩ := ih others
    refine ⟨(entry.1, text) :: entries, ?_⟩
    rw [CSharp.writeEntries, own, written]
    rfl

theorem principalRecord_ok {members : List (String × Plan)} (leaves : ∀ entry ∈ members, entry.2.Leaf) (level : Nat)
    (target : Target) : ∃ record, principalRecord members level target = .ok record := by
  cases target with
  | typescript => exact ⟨_, rfl⟩
  | python => exact ⟨_, rfl⟩
  | csharp =>
    obtain ⟨entries, written⟩ := writeEntries_ok leaves (level + 1)
    exact ⟨_, bind_eq_ok.mpr ⟨entries, written, rfl⟩⟩

/-! ## Plans -/

open PrincipalEntry (Plain keys assigned typeName)

/--
The record with the members is written, and it assigns its type once and what is due for the keys, nothing
twice just if these are distinct.
-/
def Assigns (members : List (String × Plan)) (level : Nat) (keys : List String) (target : Target) : Prop :=
  ∃ record, principalRecord members level target = .ok record ∧
    (Plan.principal members).writeAt level target = .ok (record.text level target) ∧
    record.names = assigned keys target ∧ record.names.1.count (typeName target) = 1 ∧ (record.Once ↔ keys.Nodup)

theorem assigns_principal {members : List (String × Plan)} (leaves : ∀ entry ∈ members, entry.2.Leaf)
    (plain : ∀ key ∈ members.map Prod.fst, Plain key) (level : Nat) (target : Target) :
    Assigns members level (members.map Prod.fst) target := by
  obtain ⟨record, made⟩ := principalRecord_ok leaves level target
  have names := names_principalRecord made
  refine ⟨record, made, by rw [writeAt_principal, made]; rfl, names, ?_, ?_⟩
  · rw [names]
    exact PrincipalEntry.count_typeName plain target
  · rw [PrincipalRecord.Once, names]
    exact PrincipalEntry.nodup_assigned_iff plain target

theorem leaves_ofPrincipal (fields : Option (List FieldMapping)) (fallback : Source) :
    ∃ members, ofPrincipal fields fallback = .principal members ∧ members.map Prod.fst = keys fields fallback ∧
      ∀ entry ∈ members, entry.2.Leaf := by
  refine ⟨_, rfl, by rw [← PrincipalEntry.keys_ofFields, List.map_map]; rfl, fun entry member => ?_⟩
  obtain ⟨own, _, rfl⟩ := List.mem_map.mp member
  exact .inl ⟨own.source, rfl⟩

theorem leaves_ofPrincipals (fields : Option (List FieldMapping)) (fallback : Source) :
    (keys fields fallback = [] ∧ ofPrincipals fields fallback = .noPrincipals) ∨
      ∃ reads members, ofPrincipals fields fallback = .broadcast reads principalElement false (.principal members) ∧
        members.map Prod.fst = keys fields fallback ∧ ∀ entry ∈ members, entry.2.Leaf := by
  rw [← PrincipalEntry.keys_ofFields]
  unfold ofPrincipals
  split
  · rename_i none
    exact .inl ⟨by rw [none]; rfl, rfl⟩
  · refine .inr ⟨_, _, rfl, ?_, fun entry member => ?_⟩
    · exact List.ext_getElem (by simp) fun i _ _ => by simp
    · obtain ⟨slot, _, rfl⟩ := List.mem_mapIdx.mp member
      exact .inr ⟨slot, rfl⟩

/--
The record of a principal, and that of each principal of a list, assigns its type and the keys of its mappings as
they come, in C# the known ones as members and the others in the additional data. It assigns nothing twice just if
the keys are distinct, so in particular without mappings.
-/
theorem principal_keys (fields : Option (List FieldMapping)) (fallback : Source) (target : Target) :
    (∃ members, ofPrincipal fields fallback = .principal members ∧
      ∀ level, Assigns members level (keys fields fallback) target) ∧
    ((keys fields fallback = [] ∧ ofPrincipals fields fallback = .noPrincipals) ∨
      ∃ reads members, ofPrincipals fields fallback = .broadcast reads principalElement false (.principal members) ∧
        ∀ level, Assigns members level (keys fields fallback) target) ∧
    (fields.getD [] = [] → (keys fields fallback).Nodup) := by
  have plain : ∀ key ∈ keys fields fallback, Plain key := fun key => PrincipalEntry.plain_of_mem_keys
  refine ⟨?_, ?_, ?_⟩
  · obtain ⟨members, made, same, leaves⟩ := leaves_ofPrincipal fields fallback
    exact ⟨members, made, fun level => same ▸ assigns_principal leaves (same ▸ plain) level target⟩
  · rcases leaves_ofPrincipals fields fallback with none | ⟨reads, members, made, same, leaves⟩
    · exact .inl none
    · exact .inr ⟨reads, members, made, fun level => same ▸ assigns_principal leaves (same ▸ plain) level target⟩
  · intro unmapped
    rw [PrincipalEntry.keys_of_unmapped unmapped]
    split
    · exact List.nodup_nil
    · exact List.nodup_cons.mpr ⟨List.not_mem_nil, List.nodup_nil⟩

def upnFields : List FieldMapping := [⟨"upn", { headers := ["A"] }⟩, ⟨"owner.userPrincipalName", { headers := ["B"] }⟩]

/-- In every target the record assigns the name of the user twice. -/
theorem principal_key_repeated : ∃ members, ofPrincipal (some upnFields) {} = .principal members ∧
    ∀ target level, ∃ record, principalRecord members level target = .ok record ∧
      (Plan.principal members).writeAt level target = .ok (record.text level target) ∧
      ¬ (record.own.map Prod.fst).Nodup := by
  obtain ⟨members, made, same, leaves⟩ := leaves_ofPrincipal (some upnFields) {}
  have twice : keys (some upnFields) {} = ["upn", "upn"] := by decide
  refine ⟨members, made, fun target level => ?_⟩
  obtain ⟨record, own⟩ := principalRecord_ok leaves level target
  refine ⟨record, own, by rw [writeAt_principal, own]; rfl, ?_⟩
  have names : record.own.map Prod.fst = (assigned ["upn", "upn"] target).1 := by
    rw [← twice, ← same, ← names_principalRecord own]
    rfl
  rw [names]
  cases target <;> decide

end Plan

end ProfileConnector
