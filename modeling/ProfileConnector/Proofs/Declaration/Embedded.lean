import ProfileConnector.Declaration.TypeScript
import ProfileConnector.Proofs.Declaration.Literal
import ProfileConnector.Proofs.Types.Closedness

/-!
Names of fields in TypeScript declarations. The key of a member is an identifier or a literal that denotes the
name, save for an identifier with a newline behind it, which is taken for an identifier. The messages of a
validator hold the name as it is, so they say what they should just if the name can stand between backticks.
-/

namespace ProfileConnector

open Outcome
open Identifier (isIdentifier)
open Text (literalText)

open TypeScript.Literal

namespace TypeScript

/-! ## Keys -/

/-- The key is the name, as an identifier, or a literal that denotes the name. -/
def TypeMember.Keyed (member : TypeMember) : Prop :=
  (isIdentifier member.key.toList = true ∧ member.key = member.name) ∨
    denotedString member.key.toList = some (literalText member.name)

/-- An identifier with a newline behind it. -/
def EndedIdentifier (name : String) : Prop := ∃ word, isIdentifier word = true ∧ name.toList = word ++ ['\n']

theorem isIdentifier_ended (word : List Char) : isIdentifier (word ++ ['\n']) = false := by
  cases word with
  | nil => decide
  | cons c word => simp [isIdentifier, Identifier.isPart, Identifier.isAsciiWordChar, Text.isAsciiLetter,
      Text.isAsciiDigit]

theorem denotedString_ended {word : List Char} (named : isIdentifier word = true) :
    denotedString (word ++ ['\n']) = none := by
  cases word with
  | nil => cases named
  | cons c word =>
    have unquoted : c ≠ '"' := by
      rintro rfl
      simp [isIdentifier, Identifier.isStart, Text.isAsciiLetter] at named
    rw [List.cons_append, denotedString]
    simpa using unquoted

theorem isPlain_iff (name : String) :
    Identifier.isPlain name = true ↔ isIdentifier name.toList = true ∨ EndedIdentifier name := by
  rw [Identifier.isPlain, Bool.or_eq_true]
  refine or_congr_right' fun other => ?_
  unfold Identifier.withoutFinalNewline
  split
  · rename_i last
    have whole := List.dropLast_append_getLast? _ last
    constructor
    · exact fun named => ⟨_, named, whole.symm⟩
    · rintro ⟨word, named, same⟩
      rwa [same, List.dropLast_concat]
  · rename_i last
    refine iff_of_false other ?_
    rintro ⟨word, _, same⟩
    exact last (by rw [same]; simp)

theorem TypeMember.keyed_iff (member : TypeMember) : member.Keyed ↔ ¬ EndedIdentifier member.name := by
  unfold Keyed key
  split
  · rename_i plain
    constructor
    · rintro (⟨named, _⟩ | denoted) ⟨word, own, same⟩
      · rw [same, isIdentifier_ended] at named
        cases named
      · rw [same, denotedString_ended own] at denoted
        cases denoted
    · exact fun other => .inl ⟨((isPlain_iff member.name).mp plain).resolve_right other, rfl⟩
  · rename_i quoted
    exact iff_of_true (.inr (denotedString_quote member.name)) fun ended => quoted ((isPlain_iff _).mpr (.inr ended))

/-! ## Messages -/

namespace FieldCheck

/-- Every message of the check denotes what it is to say, whatever the path and the index are. -/
structure Faithful (check : FieldCheck) : Prop where
  type : ∀ path, denotedTemplate [("path", path)] check.typeMessage.toList =
    some (path ++ literalText s!".{check.name} must be {check.expected}")
  element : ∀ guard expected, check.element = some (guard, expected) → ∀ path index,
    denotedTemplate [("path", path), ("index", index)] (check.elementMessage expected).toList =
      some (path ++ literalText s!".{check.name}[" ++ index ++ literalText s!"] must be {expected}")
  required : check.isOptional = false → ∀ path, denotedTemplate [("path", path)] check.requiredMessage.toList =
    some (path ++ literalText s!".{check.name} is required")

theorem denoted_message {scope : List (String × Text)} {path : Text} (known : scope.lookup "path" = some path)
    (check : FieldCheck) (place complaint : String) :
    denotedTemplate scope (check.message place complaint).toList =
      (enclosed '\x60' (templateUnit scope) 0
        ('.' :: (check.name.toList ++ (place.toList ++ ' ' :: complaint.toList)) ++ ['\x60'])).map (path ++ ·) := by
  have shape : (check.message place complaint).toList = '\x60' :: '$' :: '\x7b' :: ("path".toList ++ '\x7d' ::
      ('.' :: (check.name.toList ++ (place.toList ++ ' ' :: complaint.toList)) ++ ['\x60'])) := by
    simp [message, toString]
  rw [shape, denotedTemplate, enclosed_substitution (by decide) known]

theorem message_iff (check : FieldCheck) (complaint : String) :
    (∀ path, denotedTemplate [("path", path)] (check.message "" complaint).toList =
      some (path ++ literalText ("." ++ check.name ++ " " ++ complaint))) ↔
      Plain check.name.toList ∧ Plain complaint.toList := by
  have said : literalText ("." ++ check.name ++ " " ++ complaint) =
      Text.ofSplit ('.' :: (check.name.toList ++ ' ' :: complaint.toList)) := by simp [literalText]
  have parts : Plain ('.' :: (check.name.toList ++ ' ' :: complaint.toList)) ↔
      Plain check.name.toList ∧ Plain complaint.toList := by
    rw [← List.nil_append ('.' :: _), plain_between (by decide), plain_between (by decide), and_iff_right plain_nil]
  have shown (path : Text) := @denoted_message [("path", path)] path rfl check "" complaint
  simp only [String.toList_empty, List.nil_append] at shown
  rw [said, ← parts]
  constructor
  · intro denoted
    -- With an empty path nothing makes up for the characters that an escape or a substitution takes.
    obtain ⟨text, read, same⟩ := Option.map_eq_some_iff.mp ((shown []).symm.trans (denoted []))
    exact (plain_of_enclosed (by decide) read).2 same
  · intro plain path
    rw [shown, plain.enclosed]
    rfl

theorem plain_mustBe (expected : String) : Plain ("must be " ++ expected).toList ↔ Plain expected.toList := by
  have front : Plain "must be ".toList := by decide
  rw [String.toList_append, plain_append (.inl (by decide)), and_iff_right front]

theorem element_iff {check : FieldCheck} (plain : Plain check.name.toList) (expected : String) :
    (∀ path index, denotedTemplate [("path", path), ("index", index)] (check.elementMessage expected).toList =
      some (path ++ literalText s!".{check.name}[" ++ index ++ literalText s!"] must be {expected}")) ↔
      Plain expected.toList := by
  let front := '.' :: (check.name.toList ++ ['['])
  let back := ']' :: ' ' :: ("must be " ++ expected).toList
  have plainFront : Plain front := by
    rw [← List.nil_append front, plain_between (by decide), plain_between (by decide)]
    exact ⟨plain_nil, plain, plain_nil⟩
  have plainBack : Plain back ↔ Plain expected.toList := by
    rw [← List.nil_append back, plain_between (by decide), ← List.nil_append (' ' :: _), plain_between (by decide),
      plain_mustBe, and_iff_right plain_nil, and_iff_right plain_nil]
  have saidFront : literalText s!".{check.name}[" = Text.ofSplit front := by simp [literalText, toString, front]
  have saidBack : literalText s!"] must be {expected}" = Text.ofSplit back := by simp [literalText, toString, back]
  have shape : '.' :: (check.name.toList ++ ("[$\x7bindex\x7d]".toList ++ ' ' :: ("must be " ++ expected).toList)) ++
      ['\x60'] = front ++ '$' :: '\x7b' :: ("index".toList ++ '\x7d' :: (back ++ ['\x60'])) := by simp [front, back]
  -- Both substitutions are passed; what is left over are the plain parts in front and behind.
  have shown (path index : Text) :
      denotedTemplate [("path", path), ("index", index)] (check.elementMessage expected).toList =
        (enclosed '\x60' (templateUnit [("path", path), ("index", index)]) 0 (back ++ ['\x60'])).map
          fun text => path ++ (Text.ofSplit front ++ (index ++ text)) := by
    rw [elementMessage, denoted_message rfl, shape,
      enclosed_plain plainFront (.inl (by simp [front, List.getLast?_cons])), enclosed_substitution (by decide) rfl,
      Option.map_map, Option.map_map]
    rfl
  rw [saidFront, saidBack, ← plainBack]
  constructor
  · intro denoted
    obtain ⟨text, read, same⟩ := Option.map_eq_some_iff.mp ((shown [] []).symm.trans (denoted [] []))
    simp only [List.nil_append, List.append_nil] at same
    exact (plain_of_enclosed (by decide) read).2 (List.append_cancel_left same)
  · intro plain path index
    rw [shown, plain.enclosed]
    simp

theorem faithful_iff (check : FieldCheck) : check.Faithful ↔ Plain check.name.toList ∧ Plain check.expected.toList ∧
    ∀ guard expected, check.element = some (guard, expected) → Plain expected.toList := by
  have mustBe := message_iff check ("must be " ++ check.expected)
  have said : "." ++ check.name ++ " " ++ ("must be " ++ check.expected) =
      s!".{check.name} must be {check.expected}" := by
    simp only [toString, String.append_assoc]
    rw [← @String.append_assoc " "]
    rfl
  rw [said, plain_mustBe] at mustBe
  constructor
  · intro faithful
    obtain ⟨named, expected⟩ := mustBe.mp faithful.type
    exact ⟨named, expected, fun guard entry own => (element_iff named entry).mp (faithful.element guard entry own)⟩
  · rintro ⟨named, expected, entries⟩
    refine ⟨mustBe.mpr ⟨named, expected⟩,
      fun guard entry own => (element_iff named entry).mpr (entries guard entry own), ?_⟩
    intro _ path
    have missing := (message_iff check "is required").mpr ⟨named, by decide⟩ path
    rwa [String.append_assoc] at missing

end FieldCheck

end TypeScript

/-! ## Bundles -/

theorem Element.Found.plain_expected_iff {catalog : Catalog} {aliases : AliasTable} {declared : String}
    {element : Element} (found : Found catalog aliases declared element) :
    Plain element.expected.toList ↔ (element.ref.kind = .enumeration → Plain element.ref.name.toList) := by
  cases found with
  | text => exact iff_of_true (show Plain "a string".toList by decide) nofun
  | @enumeration name =>
    have back : Plain " value".toList := by decide
    rw [ofEnum, String.toList_append, plain_append (.inr (by decide)), and_iff_left back]
    exact ⟨fun plain _ => plain, fun plain => plain rfl⟩
  | composite => exact iff_of_true (show Plain "an object".toList by decide) nofun
  | scalar listed =>
    have each : ∀ entry ∈ scalars, Plain entry.2.expected.toList := by decide
    exact iff_of_true (each _ listed) (by simp [kind_of_mem_scalars listed])

namespace Bundle

open TypeScript

variable {catalog : Catalog} {schema : Schema} {rootFacet : String} {bundle : Bundle}

/--
The key of a member of a type declaration is an identifier or a literal that denotes the name, just if the name
is no identifier with a newline behind it. The messages about a field denote what they are to say just if the name
of the field and the name of the enumeration that its values are from, if they are, can stand between backticks.
-/
theorem build_embedded (built : build catalog schema rootFacet = .ok bundle) {template : TypeTemplate}
    (member : template ∈ bundle.templates) :
    (∀ own ∈ (TypeDeclaration.ofTemplate template).members, own.Keyed ↔ ¬ EndedIdentifier own.name) ∧
    ∀ field ∈ template.inherited ++ template.fields, (FieldCheck.ofField field).Faithful ↔
      Plain field.name.toList ∧
        (field.descriptor.element.ref.kind = .enumeration → Plain field.descriptor.element.ref.name.toList) := by
  obtain ⟨synthesis, declared, derived, made⟩ := build_ok built
  refine ⟨fun own _ => own.keyed_iff, fun field inside => ?_⟩
  obtain ⟨property, shows⟩ := made.shows_of_mem member (List.mem_append.mp inside).symm
  have expected := (Descriptor.found_of_resolve shows.descriptor).plain_expected_iff
  have array : Plain "an array".toList := by decide
  rw [FieldCheck.faithful_iff]
  refine and_congr_right fun _ => Iff.trans ?_ expected
  simp only [FieldCheck.ofField, Descriptor.expected]
  cases field.descriptor.isCollection with
  | false => exact and_iff_left fun _ _ own => nomatch own
  | true =>
    refine ⟨fun ⟨_, entries⟩ => entries _ _ rfl, fun entries => ⟨array, fun _ _ own => ?_⟩⟩
    cases own
    exact entries

def punctuated : Catalog where
  types := [⟨"facet", [⟨"a b", "Collection(Edm.String)", false⟩, ⟨"a\x60b", "Edm.String", true⟩,
    ⟨"ab\n", "Edm.String", true⟩], none⟩]
  names_distinct := by decide

theorem punctuated_bundle : ∃ bundle, build punctuated {} "facet" = .ok bundle ∧ ∃ template ∈ bundle.templates,
    template.inherited = [] ∧ template.fields.map (fun field => (field.name, field.descriptor.element.ref.kind)) =
      [("a b", .scalar), ("a\x60b", .scalar), ("ab\n", .scalar)] := by
  have view : (build punctuated {} "facet").map (fun bundle => bundle.templates.map fun template =>
      (template.inherited, template.fields.map fun field => (field.name, field.descriptor.element.ref.kind))) =
      .ok [([], [("a b", .scalar), ("a\x60b", .scalar), ("ab\n", .scalar)])] := by decide +kernel
  obtain ⟨bundle, built, shown⟩ := map_eq_ok.mp view
  obtain ⟨template, member, same⟩ := List.mem_map.mp (shown ▸ List.mem_cons_self)
  exact ⟨bundle, built, template, member, Prod.mk.inj same⟩

theorem build_embedded_blank : ∃ bundle template field, build punctuated {} "facet" = .ok bundle ∧
    template ∈ bundle.templates ∧ field ∈ template.fields ∧ field.name = "a b" ∧ (TypeMember.ofField field).Keyed ∧
    (FieldCheck.ofField field).Faithful := by
  obtain ⟨bundle, built, template, member, _, fields⟩ := punctuated_bundle
  obtain ⟨field, inside, same⟩ := List.mem_map.mp (fields ▸ List.mem_cons_self)
  obtain ⟨name, scalar⟩ := Prod.mk.inj same
  obtain ⟨keys, messages⟩ := build_embedded built member
  refine ⟨bundle, template, field, built, member, inside, name, (keys _ (List.mem_map_of_mem inside)).mpr ?_,
    (messages field (List.mem_append_right _ inside)).mpr ⟨by rw [name]; decide, by rw [scalar]; nofun⟩⟩
  rintro ⟨word, _, ended⟩
  have last := congrArg List.getLast? ended
  rw [List.getLast?_concat, show (TypeMember.ofField field).name = "a b" from name] at last
  revert last
  decide

/-- A name ends the literal of its message, and a key is neither an identifier nor a literal. -/
theorem embedded_broken : ∃ bundle template, build punctuated {} "facet" = .ok bundle ∧ template ∈ bundle.templates ∧
    (∃ check ∈ (Validator.ofTemplate template).checks, check.name = "a\x60b" ∧ ¬ check.Faithful) ∧
    ∃ own ∈ (TypeDeclaration.ofTemplate template).members, own.name = "ab\n" ∧ ¬ own.Keyed := by
  obtain ⟨bundle, built, template, member, _, fields⟩ := punctuated_bundle
  obtain ⟨second, inside, same⟩ := List.mem_map.mp (fields ▸ List.mem_cons_of_mem _ List.mem_cons_self)
  obtain ⟨third, listed, shown⟩ := List.mem_map.mp
    (fields ▸ List.mem_cons_of_mem _ (List.mem_cons_of_mem _ List.mem_cons_self))
  obtain ⟨backtick, _⟩ := Prod.mk.inj same
  obtain ⟨newline, _⟩ := Prod.mk.inj shown
  refine ⟨bundle, template, built, member,
    ⟨_, List.mem_map_of_mem (List.mem_append_right _ inside), backtick, fun faithful => ?_⟩,
    ⟨_, List.mem_map_of_mem listed, newline, fun keyed => ?_⟩⟩
  · obtain ⟨named, _⟩ := (FieldCheck.faithful_iff _).mp faithful
    rw [show (FieldCheck.ofField second).name = "a\x60b" from backtick] at named
    revert named
    decide
  · refine (TypeMember.keyed_iff _).mp keyed ⟨"ab".toList, by decide, ?_⟩
    rw [show (TypeMember.ofField third).name = "ab\n" from newline]
    decide

end Bundle

end ProfileConnector
