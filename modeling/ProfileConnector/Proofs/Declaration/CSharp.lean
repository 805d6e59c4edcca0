import ProfileConnector.Declaration.CSharp
import ProfileConnector.Proofs.Types.Closedness

/-!
Members of C# classes. A class declares the fields of its own type, renamed where they would have the
name of this class; an initializer renames them where they would have the name of the class that is
constructed. Both mean one member just if the two classes agree on the renaming.
-/

namespace ProfileConnector

open Outcome

namespace CSharp

/-! ## Declarations -/

theorem memberNameIn_eq_iff {className other memberName : String} :
    memberNameIn className memberName = memberNameIn other memberName ↔ (memberName = className ↔ memberName = other) := by
  have longer : memberName ++ "Value" ≠ memberName := fun same => by simpa using congrArg String.length same
  unfold memberNameIn
  split <;> split <;> simp_all [eq_comm]

/-- The member that an initializer of a type assigns a value of the property to. -/
def assigned (info : TypeInfo) (property : PropertyInfo) : String := memberNameIn info.names.cs property.memberName

theorem typedObject_assigned (info : TypeInfo) (entries : List (PropertyInfo × String)) (level : Nat) :
    typedObject info.names.cs (entries.map fun (property, value) => (property.memberName, value)) level =
      block s!"new {info.names.cs}" (entries.map fun (property, value) =>
        s!"{indent (level + 1)}{assigned info property} = {value}") level := by
  rw [typedObject, List.map_map]
  rfl

/-- The class declares a member for the key, and by this name. -/
def ClassDeclaration.Declares (declaration : ClassDeclaration) (key memberName : String) : Prop :=
  ∃ member ∈ declaration.members, member.key = key ∧ member.memberName = memberName

/-- A class is another one or inherits from it, by base clauses. -/
inductive Declarations.Inherits (declarations : Declarations) (own : ClassDeclaration) : ClassDeclaration → Prop
  | self : Inherits declarations own own
  | base {lower base : ClassDeclaration} (below : Inherits declarations own lower)
      (listed : base ∈ declarations.classes) (named : lower.base = some base.className) :
      Inherits declarations own base

end CSharp

/-! ## Templates -/

theorem TypeTemplate.exists_field {template : TypeTemplate} {key : String} {property : PropertyInfo}
    (owned : template.toInfo.property? key = some property) :
    ∃ field, (field ∈ template.fields ∨ field ∈ template.inherited) ∧ field.name = key ∧ field.toInfo = property := by
  have named {fields : List DeclaredField}
      (found : KeyedList.get? key (DeclaredField.named fields).reverse = some property) :
      ∃ field ∈ fields, field.name = key ∧ field.toInfo = property := by
    have listed := List.mem_reverse.mp (KeyedList.mem_of_get? found)
    obtain ⟨field, member, same⟩ := List.mem_map.mp listed
    cases same
    exact ⟨field, member, rfl, rfl⟩
  rw [property?_toInfo, Option.or_eq_some_iff] at owned
  rcases owned with own | ⟨_, inherited⟩
  · obtain ⟨field, member, shown⟩ := named own
    exact ⟨field, Or.inl member, shown⟩
  · obtain ⟨field, member, shown⟩ := named inherited
    exact ⟨field, Or.inr member, shown⟩

theorem TypeTemplate.Declares.declares_iff {catalog : Catalog} {aliases : AliasTable} {name : String} {type : CatalogType}
    {template : TypeTemplate} (declares : Declares catalog aliases name type template) {key memberName : String} :
    (CSharp.ClassDeclaration.ofTemplate template).Declares key memberName ↔
      key ∈ type.properties.map (·.name) ∧
        CSharp.memberNameIn template.names.cs (Identifier.memberName key) = memberName := by
  have shows := DeclaredField.resolveAll_shows declares.fields
  constructor
  · rintro ⟨_, listed, rfl, rfl⟩
    obtain ⟨field, inside, rfl⟩ := List.mem_map.mp listed
    obtain ⟨property, own, shown⟩ := exists_left shows inside
    refine ⟨List.mem_map.mpr ⟨property, own, shown.name.symm⟩, congrArg _ ?_⟩
    exact (congrArg Identifier.memberName shown.name).trans shown.memberName.symm
  · rintro ⟨listed, rfl⟩
    obtain ⟨property, own, rfl⟩ := List.mem_map.mp listed
    obtain ⟨field, inside, shown⟩ := exists_right shows own
    exact ⟨_, List.mem_map.mpr ⟨field, inside, rfl⟩, shown.name,
      congrArg (CSharp.memberNameIn template.names.cs) shown.memberName⟩

namespace Bundle

open CSharp

variable {catalog : Catalog} {schema : Schema} {rootFacet : String} {bundle : Bundle}

namespace Made

variable {synthesis : Synthesis} {declared derived : List TypeTemplate}
variable (made : Made catalog schema rootFacet bundle synthesis declared derived)

include made

theorem exists_template {name : String} {info : TypeInfo} (found : KeyedList.get? name bundle.typeMap = some info) :
    ∃ template ∈ bundle.templates, template.name = name ∧ template.toInfo = info := by
  rw [made.typeMap, KeyedList.ofPairs_eq made.named_distinct] at found
  obtain ⟨template, member, same⟩ := List.mem_map.mp (KeyedList.mem_of_get? found)
  cases same
  exact ⟨template, member, rfl, rfl⟩

theorem inherited_eq_nil {template : TypeTemplate} (member : template ∈ bundle.templates)
    (fromDerived : template.isDerived = true) : template.inherited = [] := by
  rcases List.mem_append.mp (made.templates ▸ member) with plain | listed
  · rw [(made.mem_declared plain).2] at fromDerived
    cases fromDerived
  · obtain ⟨type, _, own⟩ := (mem_of_mapM made.derivations template).mp listed
    exact (TypeTemplate.ofDerived_shows own).2.2.1

theorem memberName_eq {template : TypeTemplate} (member : template ∈ bundle.templates) {field : DeclaredField}
    (inside : field ∈ template.fields ∨ field ∈ template.inherited) :
    field.memberName = Identifier.memberName field.name := by
  obtain ⟨property, shows⟩ := made.shows_of_mem member inside
  exact shows.memberName.trans (congrArg Identifier.memberName shows.name.symm)

theorem get?_aliases {name : String} (apart : name ∉ bundle.derived.map (·.name)) :
    KeyedList.get? name bundle.aliases = (catalog.typeNamed? name).map fun type => DisplayNames.ofName type.name := by
  have keys : name ∈ KeyedList.keys bundle.aliases ↔ (catalog.typeNamed? name).isSome := by
    rw [made.aliases, AliasTable.mem_keys_build, or_iff_left apart, Catalog.typeNamed?_isSome]
  cases known : catalog.typeNamed? name with
  | none => exact KeyedList.get?_eq_none (by simp [keys, known])
  | some type =>
    obtain ⟨names, found⟩ := Option.isSome_iff_exists.mp (KeyedList.isSome_get?.mpr (keys.mpr (by rw [known]; rfl)))
    rw [found, Option.map_some, Catalog.name_of_typeNamed? known]
    rw [made.aliases] at found
    rw [AliasTable.get?_build found]

theorem exists_declares {name : String} (member : name ∈ bundle.closure) (composite : catalog.isEnum name = false)
    (apart : name ∉ bundle.derived.map (·.name)) :
    ∃ template ∈ declared, ∃ type, TypeTemplate.Declares catalog bundle.aliases name type template := by
  obtain ⟨template, inside, own⟩ := mapM_total made.declarations (made.mem_declaredNames.mpr ⟨member, composite, apart⟩)
  exact ⟨template, inside, TypeTemplate.declares_of_ofCatalog own⟩

end Made

/-! ## Chains of classes -/

/-- The type of a name and all its bases are known and declared by their own names, as classes of different names. -/
structure Intact (catalog : Catalog) (bundle : Bundle) (name : String) (type : CatalogType) : Prop where
  found : catalog.find? name = some type
  named : type.name = name
  bases : ∀ lower ∈ catalog.chain type, ∀ base, lower.base = some base →
    catalog.resolve base = base ∧ catalog.isEnum base = false ∧ base ∉ bundle.derived.map (·.name)
  classes : (bundle.templates.map (·.names.cs)).Nodup

def Stating (catalog : Catalog) (bundle : Bundle) (type : CatalogType) (template : TypeTemplate) : Prop :=
  TypeTemplate.Declares catalog bundle.aliases type.name type template

namespace Made

variable {synthesis : Synthesis} {declared derived : List TypeTemplate}
variable (made : Made catalog schema rootFacet bundle synthesis declared derived)
variable {name : String} {type lower : CatalogType} {template : TypeTemplate}

include made

theorem className_eq (member : template ∈ declared) (stating : Stating catalog bundle type template) :
    template.names.cs = Identifier.memberName type.name := by
  rw [made.names_of_mem (made.templates ▸ List.mem_append_left derived member), stating.named]
  rfl

variable (intact : Intact catalog bundle name type)

include intact

theorem stating_of_plain (member : template ∈ bundle.templates) (plain : template.isDerived = false)
    (named : template.name = name) : template ∈ declared ∧ Stating catalog bundle type template := by
  have listed : template ∈ declared := by
    refine (List.mem_append.mp (made.templates ▸ member)).resolve_right fun fromDerived => ?_
    rw [(made.mem_derived fromDerived).2] at plain
    cases plain
  obtain ⟨_, known, declares⟩ := made.declares_of_mem listed
  subst named
  cases intact.found.symm.trans (Catalog.get_eq_ok.mp declares.known)
  refine ⟨listed, ?_⟩
  rw [Stating, intact.named]
  exact declares

theorem base_ofTemplate (listed : lower ∈ catalog.chain type) (stating : Stating catalog bundle lower template) :
    (ClassDeclaration.ofTemplate template).base =
      (catalog.base? lower).map fun base => Identifier.memberName base.name := by
  rw [ClassDeclaration.ofTemplate, stating.baseNames, Catalog.base?]
  cases written : lower.base with
  | none => rfl
  | some base =>
    obtain ⟨direct, _, apart⟩ := intact.bases lower listed base written
    rw [Option.bind_some, made.get?_aliases apart]
    cases empty : base.isEmpty with
    | true => simp [empty]
    | false =>
      simp only [empty, Bool.false_eq_true, if_false, Catalog.find?, direct, Option.map_map]
      rfl

theorem exists_upper (listed : lower ∈ catalog.chain type) {base : CatalogType} (above : catalog.base? lower = some base)
    (member : template ∈ declared) (stating : Stating catalog bundle lower template) :
    ∃ upper ∈ declared, Stating catalog bundle base upper := by
  obtain ⟨written, own, _, found, named⟩ := Catalog.base?_eq_some above
  obtain ⟨direct, composite, apart⟩ := intact.bases lower listed written own
  obtain rfl : base.name = written := named.trans direct
  obtain ⟨reached, plain, _⟩ := made.mem_declaredNames.mp (stating.named ▸ (made.mem_declared member).1)
  have leads := Catalog.Leads.of_base? plain (Catalog.get_eq_ok.mp stating.known) above
  obtain ⟨upper, inside, other, states⟩ := made.exists_declares (made.leads_closed reached leads) composite apart
  cases found.symm.trans (Catalog.get_eq_ok.mp states.known)
  exact ⟨upper, inside, states⟩

theorem inherits_of_chain (member : template ∈ declared) (stating : Stating catalog bundle type template) :
    ∀ ancestor ∈ catalog.chain type, ∃ upper ∈ declared, Stating catalog bundle ancestor upper ∧
      (Declarations.ofBundle bundle).Inherits (.ofTemplate template) (.ofTemplate upper) := by
  refine Catalog.chain_induction ⟨template, member, stating, .self⟩ ?_
  rintro lower listed base above ⟨low, inside, states, inherits⟩
  obtain ⟨upper, found, other⟩ := made.exists_upper intact listed above inside states
  refine ⟨upper, found, other, .base inherits ?_ ?_⟩
  · exact List.mem_map.mpr ⟨upper, made.templates ▸ List.mem_append_left derived found, rfl⟩
  · rw [made.base_ofTemplate intact listed states, above, Option.map_some, ← made.className_eq found other]
    rfl

theorem chain_of_inherits (member : template ∈ declared) (stating : Stating catalog bundle type template)
    {declaring : ClassDeclaration}
    (inherits : (Declarations.ofBundle bundle).Inherits (.ofTemplate template) declaring) :
    ∃ ancestor ∈ catalog.chain type, ∃ upper ∈ declared, Stating catalog bundle ancestor upper ∧
      declaring = .ofTemplate upper := by
  induction inherits with
  | self => exact ⟨type, catalog.mem_chain_self type, template, member, stating, rfl⟩
  | base _ listed named ih =>
    obtain ⟨lower, inside, low, known, states, rfl⟩ := ih
    obtain ⟨other, among, rfl⟩ := List.mem_map.mp listed
    rw [made.base_ofTemplate intact inside states, Option.map_eq_some_iff] at named
    obtain ⟨base, above, same⟩ := named
    obtain ⟨upper, found, owns⟩ := made.exists_upper intact inside above known states
    have type_known := Catalog.mem_types_of_find? intact.found
    refine ⟨base, Catalog.base_mem_chain type_known inside above, upper, found, owns, ?_⟩
    -- Classes of one name are one class.
    have one : other = upper := by
      refine List.inj_on_of_nodup_map intact.classes among (made.templates ▸ List.mem_append_left derived found) ?_
      rw [made.className_eq found owns, same]
      rfl
    rw [one]

/-- The members of the classes above a class are those of the types on its chain, each renamed in its own class. -/
theorem declares_on_chain_iff (member : template ∈ declared) (stating : Stating catalog bundle type template)
    {key memberName : String} :
    (∃ declaring, (Declarations.ofBundle bundle).Inherits (.ofTemplate template) declaring ∧
      declaring.Declares key memberName) ↔
      ∃ ancestor ∈ catalog.chain type, key ∈ ancestor.properties.map (·.name) ∧
        memberNameIn (Identifier.memberName ancestor.name) (Identifier.memberName key) = memberName := by
  constructor
  · rintro ⟨_, inherits, declares⟩
    obtain ⟨ancestor, listed, upper, found, states, rfl⟩ := made.chain_of_inherits intact member stating inherits
    rw [states.declares_iff, made.className_eq found states] at declares
    exact ⟨ancestor, listed, declares⟩
  · rintro ⟨ancestor, listed, declares⟩
    obtain ⟨upper, found, states, inherits⟩ := made.inherits_of_chain intact member stating ancestor listed
    rw [← made.className_eq found states] at declares
    exact ⟨_, inherits, states.declares_iff.mpr declares⟩

end Made

/--
The member that an initializer of a type assigns for one of its properties, in every bundle. A field of
the type itself is declared by this name in the class of the type. On an intact chain a property is
declared by this name just if some type of the chain that declares it renames it as the constructed type
does: either both classes have the name of the member, or neither has.
-/
theorem declares_assigned_iff (built : build catalog schema rootFacet = .ok bundle) {name : String} {info : TypeInfo}
    (found : KeyedList.get? name bundle.typeMap = some info) {key : String} {property : PropertyInfo}
    (owned : info.property? key = some property) :
    ∃ template ∈ bundle.templates, template.name = name ∧ template.toInfo = info ∧
      (template.isDerived = true ∨ key ∈ template.fields.map (·.name) →
        (ClassDeclaration.ofTemplate template).Declares key (assigned info property)) ∧
      ∀ type, template.isDerived = false → Intact catalog bundle name type →
        ((∃ declaring, (Declarations.ofBundle bundle).Inherits (.ofTemplate template) declaring ∧
          declaring.Declares key (assigned info property)) ↔
          ∃ ancestor ∈ catalog.chain type, key ∈ ancestor.properties.map (·.name) ∧
            (property.memberName = info.names.cs ↔ property.memberName = Identifier.memberName ancestor.name)) := by
  obtain ⟨synthesis, declared, derived, made⟩ := build_ok built
  obtain ⟨template, member, rfl, rfl⟩ := made.exists_template found
  obtain ⟨field, inside, rfl, rfl⟩ := TypeTemplate.exists_field owned
  have named : field.memberName = Identifier.memberName field.name := made.memberName_eq member inside
  refine ⟨template, member, rfl, rfl, fun own => ?_, fun type plain intact => ?_⟩
  · obtain ⟨other, listed, same⟩ : ∃ other ∈ template.fields, other.name = field.name := by
      rcases own with fromDerived | own
      · rw [made.inherited_eq_nil member fromDerived, or_iff_left List.not_mem_nil] at inside
        exact ⟨field, inside, rfl⟩
      · exact List.mem_map.mp own
    refine ⟨_, List.mem_map.mpr ⟨other, listed, rfl⟩, same, ?_⟩
    have renamed : other.memberName = field.memberName := by
      rw [named, made.memberName_eq member (Or.inl listed), same]
    exact congrArg (memberNameIn template.names.cs) renamed
  · obtain ⟨listed, states⟩ := made.stating_of_plain intact member plain rfl
    rw [made.declares_on_chain_iff intact listed states]
    refine exists_congr fun ancestor => and_congr_right fun _ => and_congr_right fun _ => ?_
    rw [assigned, eq_comm, ← named]
    exact memberNameIn_eq_iff

def layered : Catalog where
  types := [
    ⟨"foo", [], some "base"⟩,
    ⟨"facet", [⟨"own", "graph.foo", true⟩], some "base"⟩,
    ⟨"base", [⟨"foo", "Edm.String", true⟩], none⟩]
  names_distinct := by decide

def memberIn? (bundle : Bundle) (name key : String) : Option (String × String) :=
  (KeyedList.get? name bundle.typeMap).bind fun info =>
    (info.property? key).map fun property => (info.names.cs, property.memberName)

theorem declares_assigned_iff_facet : ∃ bundle info property template, build layered {} "facet" = .ok bundle ∧
    KeyedList.get? "facet" bundle.typeMap = some info ∧ info.property? "foo" = some property ∧
    template ∈ bundle.templates ∧ template.name = "facet" ∧
    ∃ declaring, (Declarations.ofBundle bundle).Inherits (.ofTemplate template) declaring ∧
      declaring.Declares "foo" (assigned info property) := by
  have view : (build layered {} "facet").map (fun bundle => (bundle.templates.map (·.names.cs),
      bundle.templates.map (·.isDerived), bundle.derived.map (·.name), memberIn? bundle "facet" "foo")) =
      .ok (["Facet", "Base", "Foo"], [false, false, false], [], some ("Facet", "Foo")) := by decide +kernel
  obtain ⟨bundle, built, shown⟩ := map_eq_ok.mp view
  simp only [Prod.mk.injEq, memberIn?, Option.bind_eq_some_iff, Option.map_eq_some_iff] at shown
  obtain ⟨classes, flags, derived, info, found, property, owned, className, memberName⟩ := shown
  obtain ⟨template, member, named, _, _, chained⟩ := declares_assigned_iff built found owned
  have plain : template.isDerived = false := by
    have flag : template.isDerived ∈ [false, false, false] := flags ▸ List.mem_map.mpr ⟨template, member, rfl⟩
    simpa using flag
  have intact : Intact layered bundle "facet" ⟨"facet", [⟨"own", "graph.foo", true⟩], some "base"⟩ := by
    have each : ∀ lower ∈ layered.chain ⟨"facet", [⟨"own", "graph.foo", true⟩], some "base"⟩, ∀ base,
        base ∈ lower.base.toList → layered.resolve base = base ∧ layered.isEnum base = false := by decide +kernel
    refine ⟨by decide +kernel, rfl, fun lower listed base written => ?_, by rw [classes]; decide⟩
    obtain ⟨direct, composite⟩ := each lower listed base (by simp [written])
    exact ⟨direct, composite, by simp [derived]⟩
  refine ⟨bundle, info, property, template, built, found, owned, member, named, (chained _ plain intact).mpr ?_⟩
  refine ⟨⟨"base", [⟨"foo", "Edm.String", true⟩], none⟩, by decide +kernel, by decide, ?_⟩
  rw [className, memberName]
  decide +kernel

/-- The name of the inherited member is that of the class that inherits it, and no class declares the other name. -/
theorem assigned_undeclared : ∃ bundle info property, build layered {} "facet" = .ok bundle ∧
    KeyedList.get? "foo" bundle.typeMap = some info ∧ info.property? "foo" = some property ∧
    assigned info property = "FooValue" ∧
    ∀ declaring ∈ (Declarations.ofBundle bundle).classes, ∀ member ∈ declaring.members,
      member.memberName ≠ assigned info property := by
  have view : (build layered {} "facet").map (fun bundle =>
      ((Declarations.ofBundle bundle).classes.flatMap (·.members.map (·.memberName)), memberIn? bundle "foo" "foo")) =
      .ok (["Own", "Foo"], some ("Foo", "Foo")) := by decide +kernel
  obtain ⟨bundle, built, shown⟩ := map_eq_ok.mp view
  simp only [Prod.mk.injEq, memberIn?, Option.bind_eq_some_iff, Option.map_eq_some_iff] at shown
  obtain ⟨declared, info, found, property, owned, className, memberName⟩ := shown
  have renamed : assigned info property = "FooValue" := by
    rw [assigned, className, memberName]
    decide
  refine ⟨bundle, info, property, built, found, owned, renamed, fun declaring listed member inside same => ?_⟩
  have among : member.memberName ∈ ["Own", "Foo"] :=
    declared ▸ List.mem_flatMap.mpr ⟨declaring, listed, List.mem_map.mpr ⟨member, inside, rfl⟩⟩
  rw [same, renamed] at among
  simp at among

end Bundle

end ProfileConnector
