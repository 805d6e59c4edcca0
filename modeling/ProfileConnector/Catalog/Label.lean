import ProfileConnector.Catalog.Basic
import ProfileConnector.Schema.Basic

/-!
People labels. A supported label names the catalog type of its payload; some labels are blocked, with
a hint on how to express the same data.
-/

namespace ProfileConnector

structure PeopleLabel where
  label : String
  payload : PropertyType
  catalogType : String
  limit : Option Nat := none
  deriving DecidableEq, Repr

namespace PeopleLabel

def all : List PeopleLabel := [
  ⟨"personAccount", .string, "userAccountInformation", none⟩,
  ⟨"personName", .string, "personName", none⟩,
  ⟨"personCurrentPosition", .string, "workPosition", none⟩,
  ⟨"personAddresses", .stringCollection, "itemAddress", some 3⟩,
  ⟨"personEmails", .stringCollection, "itemEmail", some 3⟩,
  ⟨"personPhones", .stringCollection, "itemPhone", none⟩,
  ⟨"personAwards", .stringCollection, "personAward", none⟩,
  ⟨"personCertifications", .stringCollection, "personCertification", none⟩,
  ⟨"personProjects", .stringCollection, "projectParticipation", none⟩,
  ⟨"personSkills", .stringCollection, "skillProficiency", none⟩,
  ⟨"personWebAccounts", .stringCollection, "webAccount", none⟩,
  ⟨"personWebSite", .string, "personWebsite", none⟩,
  ⟨"personAnniversaries", .stringCollection, "personAnnualEvent", none⟩,
  ⟨"personNote", .string, "personAnnotation", none⟩]

def find? (label : String) : Option PeopleLabel := all.find? fun info => info.label == label

def get (label : String) : Except CatalogFault PeopleLabel :=
  match find? label with
  | some info => .ok info
  | none => .error (.unknownLabel label)

end PeopleLabel

structure BlockedLabel where
  label : String
  hint : String

namespace BlockedLabel

def message (blocked : BlockedLabel) : String :=
  s!"People connector label '{blocked.label}' is blocked for custom connectors."

def all : List BlockedLabel := [
  ⟨"personManager",
    "Remove this label. If you need to describe reporting structure, include " ++
    "manager details inside personCurrentPosition.detail.manager."⟩,
  ⟨"personAssistants",
    "Remove the label and surface assistant information inside personPhones " ++
    "or personEmails metadata instead."⟩,
  ⟨"personColleagues",
    "Consider using personProjects or personSkills to describe collaboration " ++
    "context rather than emitting colleagues directly."⟩,
  ⟨"personAlternateContacts",
    "Provide alternate contact details by enriching personPhones or personEmails " ++
    "instead of using this label."⟩,
  ⟨"personEmergencyContacts",
    "Provide emergency contact details inside personPhones or personEmails " ++
    "instead of using this label."⟩]

def find? (label : String) : Option BlockedLabel := all.find? fun blocked => blocked.label == label

end BlockedLabel

end ProfileConnector
