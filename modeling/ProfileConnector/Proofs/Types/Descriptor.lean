import ProfileConnector.Proofs.Outcome
import ProfileConnector.Proofs.Text.Trimmed
import ProfileConnector.Types.Descriptor

/-!
What the declared types of derived fields resolve to. A text is never composite, and a nested field
is composite under the very name of its type, if it is composite at all; neither is a collection.
-/

namespace ProfileConnector

open Outcome

namespace DeclaredType

theorem parse_qualified {name : String} (filled : Text.EndsFilled name.toList) :
    parse (catalogQualifier ++ "." ++ name) =
      ⟨catalogQualifier ++ "." ++ name, catalogQualifier ++ "." ++ name, false, some catalogQualifier, name⟩ := by
  have spelled : (catalogQualifier ++ "." ++ name).toList = 'g' :: "raph.".toList ++ name.toList := by
    simp [catalogQualifier]
  have ends : Text.EndsFilled ('g' :: ("raph.".toList ++ name.toList)) := by
    by_cases empty : name.toList = []
    · rw [empty]
      intro c last
      simp at last
      exact last ▸ by decide
    · rw [← List.cons_append]
      exact filled.append empty
  have trimmed : Text.trimChars (catalogQualifier ++ "." ++ name).toList = (catalogQualifier ++ "." ++ name).toList := by
    rw [spelled, List.cons_append]
    exact Text.trimChars_eq (by decide) ends
  have whole : unwrapped? (catalogQualifier ++ "." ++ name).toList = none := by
    rw [spelled]
    rfl
  have parts : qualified? (catalogQualifier ++ "." ++ name).toList = some (catalogQualifier.toList, name.toList) := by
    rw [spelled]
    simp [qualified?, catalogQualifier]
  simp only [parse, trimmed, whole, parts, Option.map_none, Option.getD_none, Option.isSome_none, Option.map_some,
    Option.getD_some, String.ofList_toList]

theorem head_of_supported {declared : String} (supported : declared ∈ supportedScalars) :
    declared.toList.head? = some 'E' := by
  have each : ∀ scalar ∈ supportedScalars, scalar.toList.head? = some 'E' := by decide
  exact each declared supported

theorem qualified?_eq_some {element front rest : List Char} (parts : qualified? element = some (front, rest)) :
    element = front ++ '.' :: rest := by
  unfold qualified? at parts
  split at parts
  · cases parts
  · rename_i dot others shape
    cases parts
    have first : dot = '.' := by
      have stopped := List.head?_dropWhile_not (· != '.') element
      rw [shape] at stopped
      simpa using stopped
    subst first
    rw [← shape, List.takeWhile_append_dropWhile]

theorem parse_parts (declared : String) : ∃ element, Text.EndsFilled element ∧
    (parse declared).element = String.ofList element ∧
    (parse declared).catalogName? = (qualified? element).bind fun (front, rest) =>
      if String.ofList front = catalogQualifier then some (String.ofList rest) else none := by
  obtain ⟨element, same⟩ : ∃ element, element =
      ((unwrapped? (Text.trimChars declared.toList)).map Text.trimChars).getD (Text.trimChars declared.toList) :=
    ⟨_, rfl⟩
  have qualifier : (parse declared).qualifier = (qualified? element).map fun (front, _) => String.ofList front := by
    rw [same]
    rfl
  have localName : (parse declared).localName = String.ofList (((qualified? element).map Prod.snd).getD element) := by
    rw [same]
    rfl
  refine ⟨element, ?_, by rw [same]; rfl, ?_⟩
  · rw [same]
    cases unwrapped? (Text.trimChars declared.toList) with
    | none => exact Text.endsFilled_trimChars _
    | some inside => exact Text.endsFilled_trimChars _
  · rw [catalogName?, qualifier, localName]
    obtain parts | ⟨pair, parts⟩ := Option.eq_none_or_eq_some (qualified? element) <;> simp [parts]

theorem qualifier_of_catalogName? {declared : DeclaredType} {name : String} (named : declared.catalogName? = some name) :
    declared.qualifier = some catalogQualifier ∧ declared.isScalar = false := by
  simp only [catalogName?, Option.ite_none_right_eq_some] at named
  refine ⟨named.1, ?_⟩
  rw [isScalar, named.1]
  decide

theorem element_of_catalogName? {declared name : String} (named : (parse declared).catalogName? = some name) :
    (parse declared).element = catalogQualifier ++ "." ++ name ∧ Text.EndsFilled name.toList := by
  obtain ⟨element, filled, written, known⟩ := parse_parts declared
  rw [known, Option.bind_eq_some_iff] at named
  obtain ⟨⟨front, rest⟩, parts, named⟩ := named
  simp only [Option.ite_none_right_eq_some, Option.some.injEq] at named
  obtain ⟨qualifier, rfl⟩ := named
  have whole := qualified?_eq_some parts
  constructor
  · rw [written, ← qualifier, whole, String.ofList_append, String.ofList_cons, String.append_assoc]
    rfl
  · intro c last
    rw [String.toList_ofList] at last
    exact filled c (by rw [whole, List.getLast?_append, List.getLast?_cons, last]; rfl)

theorem parse_element {declared name : String} (named : (parse declared).catalogName? = some name) :
    (parse (parse declared).element).element = (parse declared).element ∧
      (parse (parse declared).element).catalogName? = some name := by
  obtain ⟨spelled, filled⟩ := element_of_catalogName? named
  rw [spelled, parse_qualified filled]
  exact ⟨rfl, by simp [catalogName?]⟩

end DeclaredType

namespace Element

/-- How a declared type without its list was found to stand for an element. -/
inductive Found (catalog : Catalog) (aliases : AliasTable) (declared : String) : Element → Prop
  | text (listed : catalog.isStringLike declared = true) : Found catalog aliases declared (ofOpaque declared)
  | enumeration {name : String} (other : catalog.isStringLike declared = false)
      (named : (DeclaredType.parse declared).catalogName? = some name) (listed : catalog.isEnum name = true) :
      Found catalog aliases declared (ofEnum name)
  | composite {name : String} {names : DisplayNames} (other : catalog.isStringLike declared = false)
      (named : (DeclaredType.parse declared).catalogName? = some name) (plain : catalog.isEnum name = false)
      (known : KeyedList.get? name aliases = some names) : Found catalog aliases declared (ofComposite name names)
  | scalar {element : Element} (listed : (declared, element) ∈ scalars) : Found catalog aliases declared element

variable {catalog : Catalog} {aliases : AliasTable} {declared : String}

theorem found_of_scalars {element : Element} (known : (match KeyedList.get? declared scalars with
      | some element => Except.ok element
      | none => .error (CatalogFault.unsupported declared none)) = .ok element) :
    Found catalog aliases declared element := by
  split at known
  · rename_i found
    cases known
    exact .scalar (KeyedList.mem_of_get? found)
  · cases known

theorem resolve_ok {element : Element} (resolved : resolve catalog aliases declared = .ok element) :
    Found catalog aliases declared element := by
  simp only [resolve] at resolved
  split at resolved
  · rename_i text
    cases resolved
    exact .text text
  · rename_i other
    simp only [Bool.not_eq_true] at other
    split at resolved
    · rename_i name named
      split at resolved
      · rename_i enumeration
        cases resolved
        exact .enumeration other named enumeration
      · rename_i plain
        split at resolved
        · rename_i names known
          cases resolved
          exact .composite other named (by simpa using plain) known
        · exact found_of_scalars resolved
    · exact found_of_scalars resolved

theorem kind_of_mem_scalars {element : Element} (listed : (declared, element) ∈ scalars) :
    element.ref.kind = .scalar := by
  have each : ∀ entry ∈ scalars, entry.2.ref.kind = .scalar := by decide
  exact each _ listed

theorem catalogName?_of_isComposite {element : Element} (resolved : resolve catalog aliases declared = .ok element)
    (composite : element.ref.isComposite = true) :
    (DeclaredType.parse declared).catalogName? = some element.ref.name := by
  cases resolve_ok resolved with
  | text | enumeration => cases composite
  | composite _ named => exact named
  | scalar listed => simp [ElementRef.isComposite, kind_of_mem_scalars listed] at composite

theorem keys_scalars : KeyedList.keys scalars = DeclaredType.supportedScalars := rfl

theorem resolve_isOk : (∃ element, resolve catalog aliases declared = .ok element) ↔
    catalog.isStringLike declared = true ∨ declared ∈ DeclaredType.supportedScalars ∨
      ∃ name, (DeclaredType.parse declared).catalogName? = some name ∧
        (catalog.isEnum name = true ∨ name ∈ KeyedList.keys aliases) := by
  have scalar : declared ∈ DeclaredType.supportedScalars ↔ (KeyedList.get? declared scalars).isSome := by
    rw [← keys_scalars, KeyedList.isSome_get?]
  rw [scalar]
  simp only [resolve]
  cases text : catalog.isStringLike declared with
  | true => simp
  | false =>
    cases (DeclaredType.parse declared).catalogName? with
    | none => cases KeyedList.get? declared scalars <;> simp
    | some name =>
      cases enumeration : catalog.isEnum name with
      | true => simp [enumeration]
      | false =>
        cases known : KeyedList.get? name aliases with
        | some names => simp [enumeration, known, KeyedList.mem_keys_of_get? known]
        | none =>
          have absent : name ∉ KeyedList.keys aliases := by
            rw [← KeyedList.isSome_get?, known]
            simp
          cases KeyedList.get? declared scalars <;> simp [enumeration, known, absent]

theorem resolve_error {fault : CatalogFault} (failed : resolve catalog aliases declared = .error fault) :
    fault = .unsupported declared none := by
  simp only [resolve] at failed
  split at failed
  · cases failed
  · split at failed
    · split at failed
      · cases failed
      · split at failed
        · cases failed
        · split at failed <;> cases failed
          rfl
    · split at failed <;> cases failed
      rfl

end Element

namespace Descriptor

variable {catalog : Catalog} {aliases : AliasTable} {descriptor : Descriptor}

theorem resolve_error {declaredType : String} {fault : CatalogFault}
    (failed : resolve catalog aliases declaredType = .error fault) :
    fault = .unsupported (DeclaredType.parse declaredType).element none :=
  Element.resolve_error (map_eq_error.mp failed)

theorem found_of_resolve {declaredType : String} (resolved : resolve catalog aliases declaredType = .ok descriptor) :
    Element.Found catalog aliases (DeclaredType.parse declaredType).element descriptor.element := by
  obtain ⟨element, found, rfl⟩ := map_eq_ok.mp resolved
  exact Element.resolve_ok found

theorem resolve_text (resolved : resolve catalog aliases "Edm.String" = .ok descriptor) :
    descriptor.isCollection = false ∧ descriptor.element.ref.isComposite = false := by
  obtain ⟨element, found, rfl⟩ := map_eq_ok.mp resolved
  have single : (DeclaredType.parse "Edm.String").isCollection = false := by decide
  refine ⟨single, Bool.eq_false_iff.mpr fun composite => ?_⟩
  have outside : (DeclaredType.parse (DeclaredType.parse "Edm.String").element).catalogName? = none := by
    decide
  have named := Element.catalogName?_of_isComposite found composite
  rw [outside] at named
  cases named

theorem resolve_qualified {name : String} (filled : Text.EndsFilled name.toList)
    (resolved : resolve catalog aliases (DeclaredType.catalogQualifier ++ "." ++ name) = .ok descriptor) :
    descriptor.isCollection = false ∧ (descriptor.element.ref.isComposite = true → descriptor.element.ref.name = name) := by
  obtain ⟨element, found, rfl⟩ := map_eq_ok.mp resolved
  rw [DeclaredType.parse_qualified filled] at found ⊢
  refine ⟨rfl, fun composite => ?_⟩
  have named := Element.catalogName?_of_isComposite found composite
  rw [DeclaredType.parse_qualified filled] at named
  simpa [DeclaredType.catalogName?] using named.symm

end Descriptor

end ProfileConnector
