import ProfileConnector.Proofs.Identifier
import ProfileConnector.Proofs.Types.Bundle
import ProfileConnector.Proofs.Types.Descriptor

/-!
Names of types in texts. The types of a bundle and the elements of their properties are named by words,
runs of letters, digits and underscores, whatever the catalog and the schema call them.
-/

namespace ProfileConnector

open Outcome

structure DisplayNames.Words (names : DisplayNames) : Prop where
  ts : names.ts.toList.all Identifier.isPart = true
  py : names.py.toList.all Identifier.isPart = true

structure TypeInfo.Words (info : TypeInfo) : Prop where
  names : info.names.Words
  elements : ∀ key property, info.property? key = some property → property.descriptor.element.names.Words

theorem DisplayNames.words_ofName (name : String) : (DisplayNames.ofName name).Words := by
  have plain : (Identifier.typeName name).toList.all Identifier.isPart = true := by
    rw [Identifier.typeName, String.toList_ofList, List.all_eq_true]
    exact fun c member => Identifier.isPart_of_mem_typeChars member
  exact ⟨plain, plain⟩

theorem AliasTable.words_of_get? {catalog : Catalog} {derived : List DerivedType} {name : String} {names : DisplayNames}
    (known : KeyedList.get? name (build catalog derived) = some names) : names.Words := by
  rw [build, KeyedList.get?_ofPairs] at known
  obtain ⟨_, _, same⟩ := List.mem_map.mp (List.mem_reverse.mp (KeyedList.mem_of_get? known))
  cases same
  exact DisplayNames.words_ofName name

theorem AliasTable.words_getD {catalog : Catalog} {derived : List DerivedType} (name : String) :
    ((KeyedList.get? name (build catalog derived)).getD (DisplayNames.ofName name)).Words := by
  cases known : KeyedList.get? name (build catalog derived) with
  | none => exact DisplayNames.words_ofName name
  | some names => exact words_of_get? known

theorem Element.words_of_resolve {catalog : Catalog} {derived : List DerivedType} {declared : String}
    {element : Element} (resolved : resolve catalog (AliasTable.build catalog derived) declared = .ok element) :
    element.names.Words := by
  cases Element.resolve_ok resolved with
  | text => exact (⟨by decide, by decide⟩ : DisplayNames.Words ⟨"string", "string", "str"⟩)
  | enumeration => exact DisplayNames.words_ofName _
  | composite _ _ _ known => exact AliasTable.words_of_get? known
  | scalar listed =>
    have each : ∀ entry ∈ scalars, entry.2.names.ts.toList.all Identifier.isPart = true ∧
        entry.2.names.py.toList.all Identifier.isPart = true := by decide
    exact ⟨(each _ listed).1, (each _ listed).2⟩

theorem TypeInfo.words_of_shapes {catalog : Catalog} {derived : List DerivedType} {properties : List CatalogProperty}
    {info : TypeInfo} (names : info.names.Words)
    (shapes : Shapes catalog (AliasTable.build catalog derived) properties info) : info.Words := by
  refine ⟨names, fun key property owned => ?_⟩
  obtain ⟨declaration, listed, rfl⟩ := List.mem_map.mp ((shapes.names key).mp (KeyedList.mem_keys_of_get? owned))
  obtain ⟨shown, found, shows⟩ := shapes.shown declaration listed
  cases owned.symm.trans found
  obtain ⟨element, resolved, same⟩ := map_eq_ok.mp shows.descriptor
  exact same ▸ Element.words_of_resolve resolved

namespace Bundle

variable {catalog : Catalog} {schema : Schema} {rootFacet : String} {bundle : Bundle}

theorem words_of_get? (built : build catalog schema rootFacet = .ok bundle) {name : String} {info : TypeInfo}
    (known : KeyedList.get? name bundle.typeMap = some info) : info.Words := by
  obtain ⟨synthesis, declared, derived, made⟩ := build_ok built
  rw [made.typeMap, KeyedList.ofPairs_eq made.named_distinct] at known
  obtain ⟨template, listed, same⟩ := List.mem_map.mp (KeyedList.mem_of_get? known)
  cases same
  rw [made.templates, List.mem_append] at listed
  rcases listed with own | own
  · obtain ⟨name, _, made'⟩ := (mem_of_mapM made.declarations template).mp own
    rw [made.aliases] at made'
    obtain ⟨type, declares⟩ := TypeTemplate.declares_of_ofCatalog made'
    obtain ⟨_, _, properties, _, shapes⟩ := TypeTemplate.ofCatalog_ok made'
    refine TypeInfo.words_of_shapes ?_ shapes
    rw [TypeTemplate.toInfo, declares.names]
    exact AliasTable.words_getD name
  · obtain ⟨type, listed, made'⟩ := (mem_of_mapM made.derivations template).mp own
    rw [made.aliases] at made'
    obtain ⟨_, _, shapes⟩ := TypeTemplate.ofDerived_ok made' (made.fields_distinct listed)
    refine TypeInfo.words_of_shapes ?_ shapes
    obtain ⟨fields, _, result⟩ := bind_eq_ok.mp made'
    cases result
    exact AliasTable.words_getD type.name

end Bundle

end ProfileConnector
