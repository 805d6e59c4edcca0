import ProfileConnector.Proofs.Plan.Entity
import ProfileConnector.Proofs.Target.Read
import ProfileConnector.Proofs.Types.Descriptor

/-!
Leaves under collection properties. A leaf that stands for a whole list is read with all its texts where the
elements of the list are texts. For other elements its one text is read, and as conversions leave lists as they
are this text becomes the value of the property.
-/

namespace ProfileConnector

namespace Element

def textScalars : List String := ["Edm.String", "Edm.Date", "Edm.DateTimeOffset", "Edm.TimeOfDay"]

/-- The declared element is kept as a text. -/
def Textual (catalog : Catalog) (declared : String) : Prop :=
  catalog.isStringLike declared = true ∨ declared ∈ textScalars

variable {catalog : Catalog} {aliases : AliasTable} {declared : String} {element : Element}

theorem isString_of_mem_scalars (listed : (declared, element) ∈ scalars) :
    element.ref.isString = true ↔ declared ∈ textScalars := by
  have each : ∀ entry ∈ scalars, (entry.2.ref.isString = true ↔ entry.1 ∈ textScalars) := by decide
  exact each _ listed

theorem not_mem_textScalars {name : String} (named : (DeclaredType.parse declared).catalogName? = some name) :
    declared ∉ textScalars := by
  have each : ∀ scalar ∈ textScalars, (DeclaredType.parse scalar).catalogName? = none := by decide
  intro listed
  rw [each declared listed] at named
  cases named

theorem isString_iff (resolved : resolve catalog aliases declared = .ok element) :
    element.ref.isString = true ↔ Textual catalog declared := by
  by_cases text : catalog.isStringLike declared = true
  · simp only [resolve, text, if_true, Except.ok.injEq] at resolved
    subst resolved
    exact ⟨fun _ => .inl text, fun _ => rfl⟩
  · rw [Textual, or_iff_right text]
    cases resolve_ok resolved with
    | text listed => exact absurd listed text
    | enumeration _ named => exact iff_of_false Bool.false_ne_true (not_mem_textScalars named)
    | composite _ named => exact iff_of_false Bool.false_ne_true (not_mem_textScalars named)
    | scalar listed => exact isString_of_mem_scalars listed

end Element

namespace EntityContext

variable {context : EntityContext} {info : TypeInfo} {catalog : Catalog} {aliases : AliasTable} {declared key : String}
  {property : PropertyInfo}

theorem typedEntries_leaf (context : EntityContext) (owned : info.property? key = some property) (reader : LeafReader)
    (next : Nat) (before after : PathTree.Branches) (mapping : FieldMapping) : ∃ free,
    (context.typedEntries info reader next (before ++ (key, .leaf mapping) :: after)).1 =
      (context.typedEntries info reader next before).1 ++
        (property, context.leafMember reader property mapping) :: (context.typedEntries info reader free after).1 := by
  refine ⟨(context.typedEntries info reader next before).2, ?_⟩
  rw [typedEntries_append, typedEntries]
  simp only [owned, typedMember]

theorem leafMember_of_textual (collection : property.descriptor.isCollection = true)
    (text : property.descriptor.element.ref.isString = true) (reader : LeafReader) (mapping : FieldMapping) :
    context.leafMember reader property mapping = reader.many context.leaf mapping := by
  rw [leafMember, collection, text, Bool.and_self, if_pos rfl]

theorem leafMember_of_other (other : property.descriptor.element.ref.isString = false) (reader : LeafReader)
    (mapping : FieldMapping) : context.leafMember reader property mapping =
      .converted property.descriptor (reader.single context.leaf mapping) := by
  rw [leafMember, other, Bool.and_false, if_neg Bool.false_ne_true]

/--
A leaf under a property that is declared as a list is made of all its texts just if the declared elements are
texts; under all other lists it is written as its one text.
-/
theorem listed_leaf_reads_many_iff (context : EntityContext)
    (listed : (DeclaredType.parse declared).isCollection = true)
    (resolved : Descriptor.resolve catalog aliases declared = .ok property.descriptor)
    (owned : info.property? key = some property) (reader : LeafReader) (next : Nat) (before after : PathTree.Branches)
    (mapping : FieldMapping) : ∃ value free,
    (context.typedEntries info reader next (before ++ (key, .leaf mapping) :: after)).1 =
      (context.typedEntries info reader next before).1 ++
        (property, value) :: (context.typedEntries info reader free after).1 ∧
    (value = reader.many context.leaf mapping ↔ Element.Textual catalog (DeclaredType.parse declared).element) ∧
    ∀ target,
      (¬ Element.Textual catalog (DeclaredType.parse declared).element →
        value.write target = (reader.single context.leaf mapping).write target) ∧
      ∀ e, (reader.many context.leaf mapping).write target = .ok e →
        (value.write target = .ok e ↔ Element.Textual catalog (DeclaredType.parse declared).element) := by
  obtain ⟨element, found, shape⟩ := Outcome.map_eq_ok.mp resolved
  have collection : property.descriptor.isCollection = true := by rw [← shape, listed]
  have textual : property.descriptor.element.ref.isString = true ↔
      Element.Textual catalog (DeclaredType.parse declared).element := by
    rw [← shape]
    exact Element.isString_iff found
  obtain ⟨free, entries⟩ := typedEntries_leaf context owned reader next before after mapping
  refine ⟨_, free, entries, ?_⟩
  rw [← textual]
  by_cases text : property.descriptor.element.ref.isString = true
  · rw [leafMember_of_textual collection text]
    exact ⟨iff_of_true rfl text, fun target => ⟨absurd text, fun e all => iff_of_true all text⟩⟩
  · -- Under any other list a converted text is written like the text itself.
    have written (target : Target) :
        (Plan.converted property.descriptor (reader.single context.leaf mapping)).write target =
          (reader.single context.leaf mapping).write target :=
      Plan.write_converted collection (LeafReader.baseLevel_single context.leaf mapping reader) target
    rw [leafMember_of_other (by simpa using text)]
    refine ⟨iff_of_false ?_ text, fun target => ⟨fun _ => written target, fun e all => iff_of_false ?_ text⟩⟩
    · cases reader <;> exact Plan.noConfusion
    · rw [written]
      exact fun one => (LeafReader.apart_many one all).ne rfl

/-! ## Samples with lists -/

def sampleCatalog : Catalog where
  types := [⟨"sample", [⟨"labels", "Collection(Edm.String)", true⟩, ⟨"totals", "Collection(Edm.Int64)", true⟩], none⟩]
  names_distinct := by decide

def labelsProperty : PropertyInfo :=
  ⟨"labels", "Labels", ⟨true, Element.ofScalar ⟨"string", "string", "str"⟩ "a string"⟩, true⟩

def totalsProperty : PropertyInfo :=
  ⟨"totals", "Totals", ⟨true, Element.ofScalar ⟨"number", "long", "int"⟩ "a number"⟩, true⟩

def sampleInfo : TypeInfo := ⟨"sample", .ofName "sample", [("labels", labelsProperty), ("totals", totalsProperty)]⟩

def labelsMapping : FieldMapping := ⟨"labels", { headers := ["Labels"] }⟩

def totalsMapping : FieldMapping := ⟨"totals", { headers := ["Totals"] }⟩

theorem listed_leaf_reads_many_iff_labels :
    (DeclaredType.parse "Collection(Edm.String)").isCollection = true ∧
    Descriptor.resolve sampleCatalog [] "Collection(Edm.String)" = .ok labelsProperty.descriptor ∧
    sampleInfo.property? "labels" = some labelsProperty ∧
    ∀ context : EntityContext, (context.typedEntries sampleInfo .fromRow 0 [("labels", .leaf labelsMapping)]).1 =
      [(labelsProperty, .many (context.leaf.read labelsMapping.source))] := by
  have listed : (DeclaredType.parse "Collection(Edm.String)").isCollection = true := by decide
  have resolved : Descriptor.resolve sampleCatalog [] "Collection(Edm.String)" = .ok labelsProperty.descriptor := by
    decide
  have owned : sampleInfo.property? "labels" = some labelsProperty := by decide
  refine ⟨listed, resolved, owned, fun context => ?_⟩
  obtain ⟨value, free, entries, many, _⟩ :=
    listed_leaf_reads_many_iff context listed resolved owned .fromRow 0 [] [] labelsMapping
  rw [many.mpr (.inr (by decide))] at entries
  simpa [typedEntries, LeafReader.many] using entries

/-- The numbers of a list are read as one text, which becomes the value of the list. -/
theorem totals_read_once :
    (Bundle.build sampleCatalog {} "sample").map (·.typeMap) = .ok [("sample", sampleInfo)] ∧
    (DeclaredType.parse "Collection(Edm.Int64)").isCollection = true ∧
    (DeclaredType.parse "Collection(Edm.Int64)").element ∈ DeclaredType.supportedScalars ∧
    Descriptor.resolve sampleCatalog [] "Collection(Edm.Int64)" = .ok totalsProperty.descriptor ∧
    ((⟨[("sample", sampleInfo)], {}⟩ : EntityContext).entity (some sampleInfo) [totalsMapping]).write .csharp =
      .ok ("JsonSerializer.Serialize(\n" ++
        "        new Sample\n" ++
        "        \x7b\n" ++
        "            Totals = RowParser.ParseString(row, new[] \x7b \"Totals\" \x7d)\n" ++
        "        \x7d\n" ++
        "        )") ∧
    ∃ value, ((⟨[("sample", sampleInfo)], {}⟩ : EntityContext).typedEntries sampleInfo .fromRow 0
        (PathTree.build [totalsMapping])).1 = [(totalsProperty, value)] ∧
      ∀ target : Target, value.write target = (Plan.single (({} : LeafLimits).read totalsMapping.source)).write target ∧
        value.write target ≠ (Plan.many (({} : LeafLimits).read totalsMapping.source)).write target := by
  refine ⟨by decide, by decide, by decide, by decide, by decide,
    .converted totalsProperty.descriptor (.single (({} : LeafLimits).read totalsMapping.source)), rfl, fun target => ?_⟩
  cases target <;> decide

end EntityContext

end ProfileConnector
