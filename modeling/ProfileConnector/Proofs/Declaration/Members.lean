import ProfileConnector.Proofs.Declaration.CSharp
import ProfileConnector.Proofs.Identifier
import ProfileConnector.Proofs.Plan.Initializers

/-!
Names of C# members. A member has the capital form of the name of its field, and the name of its class with
an addition where this form is the name of the class. Classes declare their members, and initializers assign
them, once just if the names of the fields are kept apart by this.
-/

namespace ProfileConnector

open Outcome
open Identifier (memberName isIdentifier Capitalizable)

namespace CSharp

/--
The names have different capital forms, and these are not both the name of the class and the name that a
member gets instead of it.
-/
structure KeptApart (className : String) (names : List String) : Prop where
  forms : ∀ first ∈ names, ∀ second ∈ names, memberName first = memberName second → first = second
  renamed : ∀ first ∈ names, ∀ second ∈ names, memberName first = className → memberName second ≠ className ++ "Value"

theorem append_value_ne (className : String) : className ++ "Value" ≠ className := fun same => by
  simpa using congrArg String.length same

theorem memberNameIn_ne (className member : String) : memberNameIn className member ≠ className := by
  unfold memberNameIn
  split
  · rename_i same
    rw [same]
    exact append_value_ne className
  · assumption

theorem nodup_memberNames_iff (className : String) (names : List String) :
    (names.map fun name => memberNameIn className (memberName name)).Nodup ↔ names.Nodup ∧ KeptApart className names := by
  constructor
  · intro distinct
    have apart := List.inj_on_of_nodup_map distinct
    refine ⟨distinct.of_map, fun first own second other same => apart own other (by rw [same]), ?_⟩
    intro first own second other form clash
    have renamed : memberNameIn className (memberName first) = memberNameIn className (memberName second) := by
      rw [form, clash, memberNameIn, if_pos rfl, memberNameIn, if_neg (append_value_ne className)]
    rw [apart own other renamed, clash] at form
    exact append_value_ne className form
  · rintro ⟨distinct, apart⟩
    refine distinct.map_on fun first own second other same => ?_
    unfold memberNameIn at same
    split at same <;> rename_i here <;> split at same <;> rename_i there
    · exact apart.forms first own second other (here.trans there.symm)
    · exact absurd (same.symm.trans (by rw [here])) (apart.renamed first own second other here)
    · exact absurd (same.trans (by rw [there])) (apart.renamed second other first own there)
    · exact apart.forms first own second other same

theorem memberName_ne_empty (name : String) : (memberName name).toList ≠ [] := by
  unfold memberName
  split
  · decide
  · rename_i filled
    obtain ⟨c, rest, shape⟩ := List.exists_cons_of_ne_nil (l := name.toList) (by simpa using filled)
    rw [String.toList_ofList, shape, Text.capitalized]
    exact List.append_ne_nil_of_left_ne_nil (Text.capital_filled c).1 rest

theorem isIdentifier_memberNameIn (className name : String) :
    isIdentifier (memberNameIn className (memberName name)).toList = true ↔ Capitalizable name := by
  rw [← Identifier.isIdentifier_memberName, memberNameIn]
  split
  · rw [String.toList_append, Identifier.isIdentifier_append (memberName_ne_empty name) (List.all_eq_true.mp (by decide))]
  · rfl

end CSharp

namespace Bundle

open CSharp

variable {catalog : Catalog} {schema : Schema} {rootFacet : String} {bundle : Bundle}

namespace Made

variable {synthesis : Synthesis} {declared derived : List TypeTemplate}
variable (made : Made catalog schema rootFacet bundle synthesis declared derived)

include made

theorem named_of_property? {name key : String} {info : TypeInfo} {property : PropertyInfo}
    (found : KeyedList.get? name bundle.typeMap = some info) (owned : info.property? key = some property) :
    property.name = key ∧ property.memberName = memberName key := by
  obtain ⟨template, member, _, rfl⟩ := made.exists_template found
  obtain ⟨field, inside, rfl, rfl⟩ := TypeTemplate.exists_field owned
  exact ⟨rfl, made.memberName_eq member inside⟩

theorem keyed : bundle.typeMap.Keyed := fun _ _ found _ _ owned => (made.named_of_property? found owned).1

theorem memberName_of_mem {template : TypeTemplate} (member : template ∈ bundle.templates) {own : ClassMember}
    (listed : own ∈ (ClassDeclaration.ofTemplate template).members) :
    own.memberName = memberNameIn template.names.cs (memberName own.key) := by
  obtain ⟨field, inside, rfl⟩ := List.mem_map.mp listed
  exact congrArg (memberNameIn template.names.cs) (made.memberName_eq member (.inl inside))

theorem assigned_initialized {name : String} {info : TypeInfo} (found : KeyedList.get? name bundle.typeMap = some info)
    {entry : DisplayNames × List PropertyInfo} (initialized : info.Initialized entry) :
    entry.2.map (assigned info) =
      (entry.2.map (·.name)).map fun name => memberNameIn info.names.cs (memberName name) := by
  rw [List.map_map]
  refine List.map_congr_left fun property listed => ?_
  exact congrArg (memberNameIn info.names.cs) (made.named_of_property? found (initialized.owned property listed)).2

end Made

/--
A class of a bundle declares for each of its fields the capital form of the name, with an addition where this
is the name of the class; so no member has the name of the class. It is an identifier just if the name of the
field goes on like one and begins like one in capital form. The members are distinct just if the fields are,
and their names are kept apart; and an initializer assigns no member twice just if the names of its properties
are kept apart in the class that it constructs.
-/
theorem build_members (built : build catalog schema rootFacet = .ok bundle) :
    (∀ declaration ∈ (Declarations.ofBundle bundle).classes,
      (∀ member ∈ declaration.members,
        member.memberName = memberNameIn declaration.className (memberName member.key) ∧
        member.memberName ≠ declaration.className ∧
        (isIdentifier member.memberName.toList = true ↔ Capitalizable member.key)) ∧
      ((declaration.members.map (·.memberName)).Nodup ↔
        (declaration.members.map (·.key)).Nodup ∧ KeptApart declaration.className (declaration.members.map (·.key)))) ∧
    ∀ (format : InputFormat) (property : Property),
      ∀ entry ∈ ((⟨some bundle, format⟩ : PlanContext).ofProperty property).plan.initializers,
        ∃ name info, KeyedList.get? name bundle.typeMap = some info ∧ info.Initialized entry ∧
          ((entry.2.map (assigned info)).Nodup ↔ KeptApart info.names.cs (entry.2.map (·.name))) := by
  obtain ⟨synthesis, declared, derived, made⟩ := build_ok built
  constructor
  · intro declaration listed
    obtain ⟨template, member, rfl⟩ := List.mem_map.mp listed
    have shown (own : ClassMember) (inside : own ∈ (ClassDeclaration.ofTemplate template).members) :=
      made.memberName_of_mem member inside
    refine ⟨fun own inside => ⟨shown own inside, ?_, ?_⟩, ?_⟩
    · rw [shown own inside]
      exact memberNameIn_ne _ _
    · rw [shown own inside]
      exact isIdentifier_memberNameIn _ _
    · rw [← nodup_memberNames_iff, List.map_map]
      exact iff_of_eq (congrArg List.Nodup (List.map_congr_left shown))
  · intro format property entry listed
    obtain ⟨name, info, found, initialized⟩ := PlanContext.initialized_ofProperty made.keyed format property entry listed
    refine ⟨name, info, found, initialized, ?_⟩
    rw [made.assigned_initialized found initialized, nodup_memberNames_iff, and_iff_right initialized.distinct]

def formsProperty : Property :=
  { name := "q", type := .string
    entity := some ⟨"gadget",
      [⟨"foo", { headers := ["x"] }⟩, ⟨"Foo", { headers := ["y"] }⟩, ⟨"a b", { headers := ["z"] }⟩]⟩
    source := { headers := ["x"] } }

def formsSchema : Schema where
  properties := [formsProperty]

theorem forms_bundle : ∃ bundle, build crowded formsSchema "facet" = .ok bundle ∧
    (Declarations.ofBundle bundle).classes.map (fun declaration => (declaration.className,
      declaration.members.map (·.key), declaration.members.map (·.memberName))) =
      [("Facet", ["own", "p"], ["Own", "P"]), ("AB", ["p"], ["P"]),
        ("Gadget", ["foo", "Foo", "a b"], ["Foo", "Foo", "A b"])] ∧
    ((⟨some bundle, .csv⟩ : PlanContext).ofProperty formsProperty).plan.initializers.map (fun entry =>
      (entry.1, entry.2.map (·.name), entry.2.map (·.memberName))) =
      [(.ofName "gadget", ["foo", "Foo", "a b"], ["Foo", "Foo", "A b"])] := by
  have view : (build crowded formsSchema "facet").map (fun bundle =>
      ((Declarations.ofBundle bundle).classes.map (fun declaration => (declaration.className,
        declaration.members.map (·.key), declaration.members.map (·.memberName))),
      ((⟨some bundle, .csv⟩ : PlanContext).ofProperty formsProperty).plan.initializers.map (fun entry =>
        (entry.1, entry.2.map (·.name), entry.2.map (·.memberName))))) =
      .ok ([("Facet", ["own", "p"], ["Own", "P"]), ("AB", ["p"], ["P"]),
          ("Gadget", ["foo", "Foo", "a b"], ["Foo", "Foo", "A b"])],
        [(.ofName "gadget", ["foo", "Foo", "a b"], ["Foo", "Foo", "A b"])]) := by decide +kernel
  obtain ⟨bundle, built, shown⟩ := map_eq_ok.mp view
  exact ⟨bundle, built, Prod.mk.inj shown⟩

theorem build_members_facet : ∃ bundle declaration, build crowded formsSchema "facet" = .ok bundle ∧
    declaration ∈ (Declarations.ofBundle bundle).classes ∧ declaration.className = "Facet" ∧
    (declaration.members.map (·.memberName)).Nodup ∧ ∀ member ∈ declaration.members, member.memberName ≠ "Facet" := by
  obtain ⟨bundle, built, classes, _⟩ := forms_bundle
  obtain ⟨declaration, listed, same⟩ := List.mem_map.mp (classes ▸ List.mem_cons_self)
  simp only [Prod.mk.injEq] at same
  obtain ⟨className, keys, _⟩ := same
  obtain ⟨each, distinct⟩ := (build_members built).1 declaration listed
  refine ⟨bundle, declaration, built, listed, className, distinct.mpr ?_, fun member inside => ?_⟩
  · rw [keys, className]
    exact ⟨by decide, by decide +kernel, by decide +kernel⟩
  · exact className ▸ (each member inside).2.1

/-- A class need not declare a member once, nor under an identifier, nor an initializer assign it once. -/
theorem members_clash : ∃ bundle declaration entry, build crowded formsSchema "facet" = .ok bundle ∧
    declaration ∈ (Declarations.ofBundle bundle).classes ∧ ¬ (declaration.members.map (·.memberName)).Nodup ∧
    (∃ member ∈ declaration.members, isIdentifier member.memberName.toList = false) ∧
    entry ∈ ((⟨some bundle, .csv⟩ : PlanContext).ofProperty formsProperty).plan.initializers ∧
    ¬ (entry.2.map fun property => memberNameIn entry.1.cs property.memberName).Nodup := by
  obtain ⟨bundle, built, classes, initializers⟩ := forms_bundle
  obtain ⟨declaration, listed, same⟩ := List.mem_map.mp
    (classes ▸ List.mem_cons_of_mem _ (List.mem_cons_of_mem _ List.mem_cons_self))
  obtain ⟨entry, made, shown⟩ := List.mem_map.mp (initializers ▸ List.mem_cons_self)
  simp only [Prod.mk.injEq] at same shown
  obtain ⟨_, _, members⟩ := same
  obtain ⟨names, _, assigned⟩ := shown
  refine ⟨bundle, declaration, entry, built, listed, ?_, ?_, made, ?_⟩
  · rw [members]
    decide
  · obtain ⟨member, inside, blank⟩ := List.mem_map.mp (show "A b" ∈ declaration.members.map (·.memberName) by simp [members])
    exact ⟨member, inside, by rw [blank]; decide⟩
  · have renamed : entry.2.map (fun property => memberNameIn entry.1.cs property.memberName) =
        (entry.2.map (·.memberName)).map (memberNameIn entry.1.cs) := by rw [List.map_map]; rfl
    rw [renamed, assigned, names]
    decide +kernel

end Bundle

end ProfileConnector
