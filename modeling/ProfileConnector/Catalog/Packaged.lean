import ProfileConnector.Catalog.Basic

/-!
The packaged profile catalog.
-/

namespace ProfileConnector.Catalog

def packagedEnums : KeyedList String (List String) := [
  ("personRelationship", [
    "manager", "colleague", "directReport", "dotLineReport", "assistant", "dotLineManager",
    "alternateContact", "friend", "spouse", "sibling", "child", "parent", "sponsor",
    "emergencyContact", "other", "unknownFutureValue"]),
  ("allowedAudiences", [
    "me", "family", "contacts", "groupMembers", "organization", "federatedOrganizations",
    "everyone", "unknownFutureValue"]),
  ("userPersona", [
    "unknown", "externalMember", "externalGuest", "internalMember", "internalGuest",
    "unknownFutureValue"])]

def packagedTypes : List CatalogType := [
  ⟨"itemFacet", [
    ⟨"allowedAudiences", "graph.allowedAudiences", true⟩,
    ⟨"createdBy", "graph.identitySet", true⟩,
    ⟨"createdDateTime", "Edm.DateTimeOffset", true⟩,
    ⟨"id", "Edm.String", false⟩,
    ⟨"inference", "graph.inferenceData", true⟩,
    ⟨"isSearchable", "Edm.Boolean", true⟩,
    ⟨"lastModifiedBy", "graph.identitySet", true⟩,
    ⟨"lastModifiedDateTime", "Edm.DateTimeOffset", true⟩,
    ⟨"source", "graph.personDataSources", true⟩,
    ⟨"sources", "Collection(graph.profileSourceAnnotation)", true⟩], none⟩,
  ⟨"identitySet", [
    ⟨"application", "graph.identity", true⟩,
    ⟨"device", "graph.identity", true⟩,
    ⟨"user", "graph.identity", true⟩], none⟩,
  ⟨"identity", [
    ⟨"displayName", "Edm.String", true⟩,
    ⟨"id", "Edm.String", true⟩], none⟩,
  ⟨"inferenceData", [
    ⟨"confidenceScore", "Edm.Double", true⟩,
    ⟨"userHasVerifiedAccuracy", "Edm.Boolean", true⟩], none⟩,
  ⟨"personDataSources", [
    ⟨"type", "Collection(Edm.String)", true⟩], none⟩,
  ⟨"profileSourceAnnotation", [
    ⟨"isDefaultSource", "Edm.Boolean", true⟩,
    ⟨"properties", "Collection(Edm.String)", true⟩,
    ⟨"sourceId", "Edm.String", true⟩], none⟩,
  ⟨"userAccountInformation", [
    ⟨"ageGroup", "Edm.String", true⟩,
    ⟨"countryCode", "Edm.String", true⟩,
    ⟨"originTenantInfo", "graph.originTenantInfo", true⟩,
    ⟨"preferredLanguageTag", "graph.localeInfo", true⟩,
    ⟨"userPersona", "graph.userPersona", true⟩,
    ⟨"userPrincipalName", "Edm.String", true⟩], some "itemFacet"⟩,
  ⟨"localeInfo", [
    ⟨"displayName", "Edm.String", true⟩,
    ⟨"locale", "Edm.String", true⟩], none⟩,
  ⟨"personName", [
    ⟨"displayName", "Edm.String", true⟩,
    ⟨"first", "Edm.String", true⟩,
    ⟨"initials", "Edm.String", true⟩,
    ⟨"languageTag", "Edm.String", true⟩,
    ⟨"last", "Edm.String", true⟩,
    ⟨"maiden", "Edm.String", true⟩,
    ⟨"middle", "Edm.String", true⟩,
    ⟨"nickname", "Edm.String", true⟩,
    ⟨"pronunciation", "graph.personNamePronounciation", true⟩,
    ⟨"suffix", "Edm.String", true⟩,
    ⟨"title", "Edm.String", true⟩], some "itemFacet"⟩,
  ⟨"personNamePronounciation", [
    ⟨"displayName", "Edm.String", true⟩,
    ⟨"first", "Edm.String", true⟩,
    ⟨"last", "Edm.String", true⟩,
    ⟨"maiden", "Edm.String", true⟩,
    ⟨"middle", "Edm.String", true⟩], none⟩,
  ⟨"workPosition", [
    ⟨"categories", "Collection(Edm.String)", true⟩,
    ⟨"colleagues", "Collection(graph.relatedPerson)", true⟩,
    ⟨"detail", "graph.positionDetail", true⟩,
    ⟨"isCurrent", "Edm.Boolean", true⟩,
    ⟨"manager", "graph.relatedPerson", true⟩], some "itemFacet"⟩,
  ⟨"relatedPerson", [
    ⟨"displayName", "Edm.String", true⟩,
    ⟨"relationship", "graph.personRelationship", true⟩,
    ⟨"userId", "Edm.String", true⟩,
    ⟨"userPrincipalName", "Edm.String", true⟩], none⟩,
  ⟨"positionDetail", [
    ⟨"company", "graph.companyDetail", true⟩,
    ⟨"description", "Edm.String", true⟩,
    ⟨"endMonthYear", "Edm.Date", true⟩,
    ⟨"jobTitle", "Edm.String", true⟩,
    ⟨"layer", "Edm.Int32", true⟩,
    ⟨"level", "Edm.String", true⟩,
    ⟨"role", "Edm.String", true⟩,
    ⟨"startMonthYear", "Edm.Date", true⟩,
    ⟨"summary", "Edm.String", true⟩], none⟩,
  ⟨"companyDetail", [
    ⟨"address", "graph.physicalAddress", true⟩,
    ⟨"department", "Edm.String", true⟩,
    ⟨"displayName", "Edm.String", true⟩,
    ⟨"officeLocation", "Edm.String", true⟩,
    ⟨"pronunciation", "Edm.String", true⟩,
    ⟨"webUrl", "Edm.String", true⟩], none⟩,
  ⟨"physicalAddress", [
    ⟨"city", "Edm.String", true⟩,
    ⟨"countryOrRegion", "Edm.String", true⟩,
    ⟨"postalCode", "Edm.String", true⟩,
    ⟨"state", "Edm.String", true⟩,
    ⟨"street", "Edm.String", true⟩], none⟩,
  ⟨"itemAddress", [
    ⟨"detail", "graph.physicalAddress", true⟩,
    ⟨"displayName", "Edm.String", true⟩,
    ⟨"geoCoordinates", "graph.geoCoordinates", true⟩], some "itemFacet"⟩,
  ⟨"geoCoordinates", [
    ⟨"altitude", "Edm.Double", true⟩,
    ⟨"latitude", "Edm.Double", true⟩,
    ⟨"longitude", "Edm.Double", true⟩], none⟩,
  ⟨"itemEmail", [
    ⟨"address", "Edm.String", true⟩,
    ⟨"displayName", "Edm.String", true⟩,
    ⟨"type", "graph.emailType", true⟩], some "itemFacet"⟩,
  ⟨"itemPhone", [
    ⟨"displayName", "Edm.String", true⟩,
    ⟨"number", "Edm.String", true⟩,
    ⟨"type", "graph.phoneType", true⟩], some "itemFacet"⟩,
  ⟨"personAward", [
    ⟨"description", "Edm.String", true⟩,
    ⟨"displayName", "Edm.String", true⟩,
    ⟨"issuedDate", "Edm.Date", true⟩,
    ⟨"issuingAuthority", "Edm.String", true⟩,
    ⟨"thumbnailUrl", "Edm.String", true⟩,
    ⟨"webUrl", "Edm.String", true⟩], some "itemFacet"⟩,
  ⟨"personCertification", [
    ⟨"certificationId", "Edm.String", true⟩,
    ⟨"description", "Edm.String", true⟩,
    ⟨"displayName", "Edm.String", true⟩,
    ⟨"endDate", "Edm.Date", true⟩,
    ⟨"issuedDate", "Edm.Date", true⟩,
    ⟨"issuingAuthority", "Edm.String", true⟩,
    ⟨"issuingCompany", "Edm.String", true⟩,
    ⟨"startDate", "Edm.Date", true⟩,
    ⟨"thumbnailUrl", "Edm.String", true⟩,
    ⟨"webUrl", "Edm.String", true⟩], some "itemFacet"⟩,
  ⟨"projectParticipation", [
    ⟨"categories", "Collection(Edm.String)", true⟩,
    ⟨"client", "graph.companyDetail", true⟩,
    ⟨"collaborationTags", "Collection(Edm.String)", true⟩,
    ⟨"colleagues", "Collection(graph.relatedPerson)", true⟩,
    ⟨"detail", "graph.positionDetail", true⟩,
    ⟨"displayName", "Edm.String", true⟩,
    ⟨"sponsors", "Collection(graph.relatedPerson)", true⟩], some "itemFacet"⟩,
  ⟨"skillProficiency", [
    ⟨"categories", "Collection(Edm.String)", true⟩,
    ⟨"collaborationTags", "Collection(Edm.String)", true⟩,
    ⟨"displayName", "Edm.String", true⟩,
    ⟨"proficiency", "graph.skillProficiencyLevel", true⟩,
    ⟨"webUrl", "Edm.String", true⟩], some "itemFacet"⟩,
  ⟨"webAccount", [
    ⟨"description", "Edm.String", true⟩,
    ⟨"service", "graph.serviceInformation", true⟩,
    ⟨"statusMessage", "Edm.String", true⟩,
    ⟨"thumbnailUrl", "Edm.String", true⟩,
    ⟨"userId", "Edm.String", true⟩,
    ⟨"webUrl", "Edm.String", true⟩], some "itemFacet"⟩,
  ⟨"serviceInformation", [
    ⟨"name", "Edm.String", true⟩,
    ⟨"webUrl", "Edm.String", true⟩], none⟩,
  ⟨"personWebsite", [
    ⟨"categories", "Collection(Edm.String)", true⟩,
    ⟨"description", "Edm.String", true⟩,
    ⟨"displayName", "Edm.String", true⟩,
    ⟨"thumbnailUrl", "Edm.String", true⟩,
    ⟨"webUrl", "Edm.String", true⟩], some "itemFacet"⟩,
  ⟨"personAnnualEvent", [
    ⟨"date", "Edm.Date", true⟩,
    ⟨"displayName", "Edm.String", true⟩,
    ⟨"type", "graph.personAnnualEventType", true⟩], some "itemFacet"⟩,
  ⟨"personAnnotation", [
    ⟨"detail", "graph.itemBody", true⟩,
    ⟨"displayName", "Edm.String", true⟩,
    ⟨"thumbnailUrl", "Edm.String", true⟩], some "itemFacet"⟩,
  ⟨"educationalActivity", [
    ⟨"completionMonthYear", "Edm.Date", true⟩,
    ⟨"endMonthYear", "Edm.Date", true⟩,
    ⟨"institution", "graph.institutionData", true⟩,
    ⟨"program", "graph.educationalActivityDetail", true⟩,
    ⟨"startMonthYear", "Edm.Date", true⟩], some "itemFacet"⟩,
  ⟨"institutionData", [
    ⟨"description", "Edm.String", true⟩,
    ⟨"displayName", "Edm.String", true⟩,
    ⟨"location", "graph.physicalAddress", true⟩,
    ⟨"webUrl", "Edm.String", true⟩], none⟩]

def packagedSnapshot : Snapshot where
  types := packagedTypes
  enums := packagedEnums
  stringTypes := [
    "graph.emailType", "graph.phoneType", "graph.skillProficiencyLevel",
    "graph.personAnnualEventType", "graph.itemBody"]
  aliases := [("personAnniversary", "personAnnualEvent"), ("webSite", "personWebsite")]
  version := .text (Text.ofString "2024-10-01")

def packaged : Catalog where
  toSnapshot := packagedSnapshot
  names_distinct := by decide +kernel

end ProfileConnector.Catalog
