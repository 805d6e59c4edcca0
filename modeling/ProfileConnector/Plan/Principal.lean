import ProfileConnector.Plan.Basic

/-!
Plans of principals. A principal is a small identity record whose keys are the last segments of the
mapped paths; without mappings the source of the property itself is the user principal name.
-/

namespace ProfileConnector

structure PrincipalEntry where
  key : String
  source : Source
  deriving DecidableEq, Repr

namespace PrincipalEntry

def odataType : String := "microsoft.graph.externalConnectors.principal"

/-- Keys with a member of their own on a typed principal, and that member. -/
def knownMembers : List (String × String) := [
  ("upn", "Upn"), ("userPrincipalName", "Upn"), ("tenantId", "TenantId"),
  ("externalName", "ExternalName"), ("externalId", "ExternalId"),
  ("entraDisplayName", "EntraDisplayName"), ("entraId", "EntraId"), ("email", "Email")]

def member? (key : String) : Option String := KeyedList.get? key knownMembers

def lastSegment (path : String) : String :=
  String.ofList ((path.toList.splitOn '.').getLastD [])

def keyOf (path : String) : String :=
  if lastSegment path = "userPrincipalName" then "upn" else lastSegment path

/-- The entries of a principal; mappings with an empty last segment are left out. -/
def ofFields (fields : Option (List FieldMapping)) (fallback : Source) : List PrincipalEntry :=
  match fields.getD [] with
  | [] => if fallback.isEmpty then [] else [⟨"upn", fallback⟩]
  | mapped => (mapped.map fun mapping => ⟨keyOf mapping.path, mapping.source⟩).filter (!·.key.isEmpty)

end PrincipalEntry

namespace Plan

def ofPrincipal (fields : Option (List FieldMapping)) (fallback : Source) : Plan :=
  .principal ((PrincipalEntry.ofFields fields fallback).map fun entry =>
    (entry.key, .single (({} : LeafLimits).read entry.source)))

def principalElement : DisplayNames := ⟨"Principal", "Principal", "Principal"⟩

/-- One principal for every position of the mapped leaves. -/
def ofPrincipals (fields : Option (List FieldMapping)) (fallback : Source) : Plan :=
  match PrincipalEntry.ofFields fields fallback with
  | [] => .noPrincipals
  | entries =>
    .broadcast (entries.mapIdx fun i entry => (i, ({} : LeafLimits).read entry.source))
      principalElement false (.principal (entries.mapIdx fun i entry => (entry.key, .picked i)))

end Plan

end ProfileConnector
