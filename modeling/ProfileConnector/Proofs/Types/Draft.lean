import ProfileConnector.Proofs.Identifier
import ProfileConnector.Proofs.Types.Derived
import ProfileConnector.Proofs.Types.Descriptor
import ProfileConnector.Types.Draft

/-!
Drafts and derived types. While a subtree is drafted, the field above it has its variable name but is
not there yet, so drafts and types agree only on names as long as the name of the subtree's type. That
is enough: what lies below a type has longer names, so nothing reads the drafts that are behind.
-/

namespace ProfileConnector

namespace DerivedFields

variable {types later : DerivedFields} {name key : String}

/-! ## Well-named types -/

/-- Sound types whose nested fields are named by their place, with distinct variable names. -/
structure Formed (types : DerivedFields) : Prop where
  sound : Sound types
  named : ∀ name key type, types.nested? name key = some type → type = nestedName name key
  numbered : ∀ name, ((types.fieldsOf name).map (·.variableName)).Nodup

theorem formed_nil : Formed [] where
  sound := sound_nil
  named _ _ _ found := by simp [nested?, field?, fieldsOf, KeyedList.get?] at found
  numbered _ := List.nodup_nil

theorem fieldsOf_entered (types : DerivedFields) (name key other : String) (child : PathTree) :
    (types.entered name key child).fieldsOf other =
      (types.withField name key (branchTarget name key child)).fieldsOf other := by
  simp only [entered]
  split <;> simp

theorem nested?_entered (types : DerivedFields) (name key other wanted : String) (child : PathTree) :
    (types.entered name key child).nested? other wanted =
      (types.withField name key (branchTarget name key child)).nested? other wanted := by
  simp only [nested?, field?, fieldsOf_entered]

theorem Formed.opened (formed : Formed types) (name : String) : Formed (types.opened name) where
  sound := formed.sound.opened name
  named other key type found := formed.named other key type (by rwa [nested?_opened] at found)
  numbered other := by
    rw [fieldsOf_opened]
    exact formed.numbered other

theorem Formed.entered (formed : Formed types) (name key : String) (child : PathTree) (nonempty : key ≠ "")
    (filled : Text.EndsFilled key.toList) : Formed (types.entered name key child) where
  sound := formed.sound.entered name key child nonempty filled
  named other wanted type found := by
    rw [nested?_entered] at found
    obtain ⟨field, present, target⟩ := Option.bind_eq_some_iff.mp found
    rcases field?_withField present with old | ⟨rfl, rfl, added⟩
    · exact formed.named other wanted type (by rw [nested?, old]; exact target)
    · cases child with
      | leaf mapping => simp [DerivedField.nestedType?, added, branchTarget] at target
      | node children => simpa [DerivedField.nestedType?, added, branchTarget, eq_comm] using target
  numbered other := by
    rw [fieldsOf_entered]
    unfold withField
    split
    · exact formed.numbered other
    · rw [fieldsOf_adding]
      split
      · rw [List.map_append, List.nodup_append]
        refine ⟨formed.numbered name, List.nodup_singleton _, fun taken listed new single same => ?_⟩
        obtain rfl : new = Identifier.freshVariable key ((types.fieldsOf name).map (·.variableName)) := by
          simpa using single
        exact Identifier.freshVariable_not_mem key _ (same ▸ listed)
      · exact formed.numbered other

theorem nested?_adding (absent : types.field? name key = none) (type : String) :
    (types.adding name key (.nested type)).nested? name key = some type := by
  rw [field?] at absent
  simp [nested?, field?, fieldsOf_adding, absent, DerivedField.nestedType?]

theorem entered_node (absent : types.field? name key = none) (children : PathTree.Branches) :
    types.entered name key (.node children) =
      (types.adding name key (.nested (nestedName name key))).opened (nestedName name key) := by
  simp [entered, withField, branchTarget, absent, nested?_adding absent]

theorem length_lt_nestedName (name key : String) : name.length < (nestedName name key).length := by
  have some : 0 < (Identifier.memberName key).length := by
    unfold Identifier.memberName
    split
    · decide
    · rename_i nonempty
      obtain ⟨c, rest, shape⟩ : ∃ c rest, key.toList = c :: rest := by
        refine List.exists_cons_of_ne_nil fun empty => nonempty ?_
        simpa using congrArg String.ofList empty
      rw [String.length_ofList, shape, Text.capitalized, List.length_append]
      exact Nat.add_pos_left (List.length_pos_iff.mpr (Text.capital_filled c).1) _
  rw [nestedName, String.length_append]
  omega

/-! ## Growth at the ends -/

structure Extends (types later : DerivedFields) : Prop where
  keys : KeyedList.keys types <+: KeyedList.keys later
  fields : ∀ name, types.fieldsOf name <+: later.fieldsOf name

theorem Extends.refl (types : DerivedFields) : Extends types types := ⟨List.prefix_rfl, fun _ => List.prefix_rfl⟩

theorem Extends.trans {middle : DerivedFields} (first : Extends types middle) (second : Extends middle later) :
    Extends types later :=
  ⟨first.keys.trans second.keys, fun name => (first.fields name).trans (second.fields name)⟩

theorem keys_prefix_put {ν : Type} (name : String) (value : ν) (entries : KeyedList String ν) :
    KeyedList.keys entries <+: KeyedList.keys (KeyedList.put name value entries) := by
  rw [KeyedList.keys_put]
  split
  · exact List.prefix_rfl
  · exact List.prefix_append _ _

theorem extends_opened (types : DerivedFields) (name : String) : Extends types (types.opened name) where
  keys := keys_prefix_put name _ types
  fields other := fieldsOf_opened types name other ▸ List.prefix_rfl

theorem extends_withField (types : DerivedFields) (name key : String) (target : FieldTarget) :
    Extends types (types.withField name key target) := by
  unfold withField
  split
  · exact .refl types
  · refine ⟨keys_prefix_put name _ types, fun other => ?_⟩
    rw [fieldsOf_adding]
    split
    · rename_i same
      exact same ▸ List.prefix_append _ _
    · exact List.prefix_rfl

theorem extends_entered (types : DerivedFields) (name key : String) (child : PathTree) :
    Extends types (types.entered name key child) := by
  have field := extends_withField types name key (branchTarget name key child)
  simp only [entered]
  split
  · exact field.trans (extends_opened _ _)
  · exact field

theorem extends_extended (types : DerivedFields) (name : String) (fields : List FieldMapping) :
    Extends types (types.extended name (PathTree.build fields)) :=
  visit_induction (fun later other key child _ _ grown => grown.trans (extends_entered later other key child))
    (PathTree.tidy_build fields) name (extends_opened types name)

end DerivedFields

theorem DerivedField.declaredType_ne_text {field : DerivedField} {type : String} (shape : field.target = .nested type) :
    field.declaredType ≠ "Edm.String" := by
  intro same
  have letters := congrArg String.toList same
  simp [declaredType, shape, DeclaredType.catalogQualifier] at letters

theorem DerivedField.referredType?_nested {field : DerivedField} {type : String}
    (shape : field.target = .nested type) (filled : Text.EndsFilled type.toList) :
    field.referredType? = some type := by
  rw [referredType?, if_neg (declaredType_ne_text shape), declaredType, shape]
  simp only [DeclaredType.parse_qualified filled]

namespace Drafts

variable {drafts later : Drafts} {types : DerivedFields} {name key : String}

/-! ## Reading drafts -/

@[simp] theorem draftOf_opened (drafts : Drafts) (name other : String) :
    (drafts.opened name).draftOf other = drafts.draftOf other := by
  rw [draftOf, opened, KeyedList.get?_put]
  split
  · rename_i same
    rw [same, Option.getD_some]
  · rfl

theorem draftOf_taking (drafts : Drafts) (name variableName other : String) :
    (drafts.taking name variableName).draftOf other =
      if name = other then ⟨(drafts.draftOf name).fields, (drafts.draftOf name).taken ++ [variableName]⟩
      else drafts.draftOf other := by
  rw [draftOf, taking, KeyedList.get?_put]
  split <;> rfl

theorem draftOf_adding (drafts : Drafts) (name other : String) (field : DerivedField) :
    (drafts.adding name field).draftOf other =
      if name = other then ⟨(drafts.draftOf name).fields ++ [field], (drafts.draftOf name).taken⟩
      else drafts.draftOf other := by
  rw [draftOf, adding, KeyedList.get?_put]
  split <;> rfl

/-! ## Agreement -/

def settled (fields : List DerivedField) : Draft := ⟨fields, fields.map (·.variableName)⟩

/-- Drafts and types have the same names, and those of some length on have the same fields. -/
structure Agrees (level : Nat) (drafts : Drafts) (types : DerivedFields) : Prop where
  keys : KeyedList.keys drafts = KeyedList.keys types
  settled : ∀ name, level ≤ name.length → drafts.draftOf name = settled (types.fieldsOf name)

theorem Agrees.field? {level : Nat} (agrees : Agrees level drafts types) (long : level ≤ name.length) :
    drafts.field? name key = types.field? name key := by
  rw [Drafts.field?, agrees.settled name long]
  rfl

theorem Agrees.freshFor {level : Nat} (agrees : Agrees level drafts types) (long : level ≤ name.length) :
    drafts.freshFor name key = Identifier.freshVariable key ((types.fieldsOf name).map (·.variableName)) := by
  rw [Drafts.freshFor, agrees.settled name long]
  rfl

theorem Agrees.opened {level : Nat} (agrees : Agrees level drafts types) (name : String) :
    Agrees level (drafts.opened name) (types.opened name) where
  keys := by rw [Drafts.opened, DerivedFields.opened, KeyedList.keys_put, KeyedList.keys_put, agrees.keys]
  settled other long := by
    rw [draftOf_opened, DerivedFields.fieldsOf_opened]
    exact agrees.settled other long

theorem Agrees.raise {low high : Nat} (agrees : Agrees low drafts types) (below : low ≤ high) :
    Agrees high drafts types where
  keys := agrees.keys
  settled other long := agrees.settled other (Nat.le_trans below long)

/--
Drafts and types that agree have been taken further alike: they agree still, and nothing has changed
under shorter names.
-/
structure Taken (level : Nat) (drafts drafts' : Drafts) (types types' : DerivedFields) : Prop where
  formed : types'.Formed
  agrees : Agrees level drafts' types'
  untouched : ∀ other, other.length < level →
    drafts'.draftOf other = drafts.draftOf other ∧ types'.fieldsOf other = types.fieldsOf other

theorem Taken.trans {level : Nat} {middle final : Drafts} {types' types'' : DerivedFields}
    (first : Taken level drafts middle types types') (second : Taken level middle final types' types'') :
    Taken level drafts final types types'' where
  formed := second.formed
  agrees := second.agrees
  untouched other short :=
    ⟨(second.untouched other short).1.trans (first.untouched other short).1,
      (second.untouched other short).2.trans (first.untouched other short).2⟩

theorem Taken.lower {low high : Nat} {drafts' : Drafts} {types' : DerivedFields} (below : low ≤ high)
    (agrees : Agrees low drafts types) (taken : Taken high drafts drafts' types types') :
    Taken low drafts drafts' types types' where
  formed := taken.formed
  agrees := {
    keys := taken.agrees.keys
    settled := fun other long => by
      by_cases deep : high ≤ other.length
      · exact taken.agrees.settled other deep
      · obtain ⟨sameDraft, sameFields⟩ := taken.untouched other (Nat.lt_of_not_le deep)
        rw [sameDraft, sameFields]
        exact agrees.settled other long }
  untouched other short := taken.untouched other (Nat.lt_of_lt_of_le short below)

theorem Taken.refl {level : Nat} (formed : types.Formed) (agrees : Agrees level drafts types) :
    Taken level drafts drafts types types where
  formed := formed
  agrees := agrees
  untouched _ _ := ⟨rfl, rfl⟩

theorem Taken.opened {level : Nat} (formed : types.Formed) (agrees : Agrees level drafts types) (name : String) :
    Taken level drafts (drafts.opened name) types (types.opened name) where
  formed := formed.opened name
  agrees := agrees.opened name
  untouched other _ := ⟨draftOf_opened drafts name other, DerivedFields.fieldsOf_opened types name other⟩

theorem draftOf_added {level : Nat} (agrees : Agrees level drafts types) (long : level ≤ name.length)
    (target : FieldTarget)
    (given : later.draftOf name = (drafts.taking name (drafts.freshFor name key)).draftOf name) :
    (later.adding name ⟨key, drafts.freshFor name key, target⟩).draftOf name =
      settled ((types.adding name key target).fieldsOf name) := by
  rw [draftOf_adding, if_pos rfl, given, draftOf_taking, if_pos rfl, agrees.settled name long, agrees.freshFor long,
    DerivedFields.fieldsOf_adding, if_pos rfl]
  simp [settled]

/-! ## One branch -/

theorem ne_of_longer {name other : String} (longer : other.length < name.length) : name ≠ other :=
  fun same => Nat.ne_of_gt longer (congrArg String.length same)

theorem taken_leaf (formed : types.Formed) (agrees : Agrees name.length drafts types) (nonempty : key ≠ "")
    (filled : Text.EndsFilled key.toList) (mapping : FieldMapping) :
    Taken name.length drafts (drafts.visitChild name key (.leaf mapping)) types
      (types.visitChild name key (.leaf mapping)) := by
  have entered := formed.entered name key (.leaf mapping) nonempty filled
  rw [← DerivedFields.visitChild_leaf] at entered
  have same : drafts.field? name key = types.field? name key := agrees.field? (Nat.le_refl _)
  rw [visitChild, DerivedFields.visitChild] at *
  cases found : types.field? name key with
  | some field =>
    simp only [same, found]
    exact .refl formed agrees
  | none =>
    simp only [found] at entered
    simp only [same, found]
    refine ⟨entered, ⟨?_, fun other long => ?_⟩, fun other short => ?_⟩
    · simp only [adding, taking, DerivedFields.adding, KeyedList.keys_put, agrees.keys]
      split <;> simp_all
    · by_cases own : name = other
      · subst own
        exact draftOf_added agrees (Nat.le_refl _) .text rfl
      · rw [draftOf_adding, if_neg own, draftOf_taking, if_neg own, DerivedFields.fieldsOf_adding, if_neg own]
        exact agrees.settled other long
    · have own := ne_of_longer short
      rw [draftOf_adding, if_neg own, draftOf_taking, if_neg own, DerivedFields.fieldsOf_adding, if_neg own]
      exact ⟨rfl, rfl⟩

theorem started_of_ne (drafts : Drafts) (types : DerivedFields) {name other : String} (different : name ≠ other)
    (variableName key type : String) (target : FieldTarget) :
    ((drafts.taking name variableName).opened type).draftOf other = drafts.draftOf other ∧
      ((types.adding name key target).opened type).fieldsOf other = types.fieldsOf other := by
  rw [draftOf_opened, draftOf_taking, if_neg different, DerivedFields.fieldsOf_opened, DerivedFields.fieldsOf_adding,
    if_neg different]
  exact ⟨rfl, rfl⟩

/-- Only the draft of the name is behind its type, so longer names agree as before. -/
theorem agrees_started (agrees : Agrees name.length drafts types) {type : String} (longer : name.length < type.length)
    (variableName key : String) (target : FieldTarget) :
    Agrees type.length ((drafts.taking name variableName).opened type) ((types.adding name key target).opened type) where
  keys := by
    rw [Drafts.opened, DerivedFields.opened, KeyedList.keys_put, KeyedList.keys_put, taking, DerivedFields.adding,
      KeyedList.keys_put, KeyedList.keys_put, agrees.keys]
  settled other long := by
    have apart : name ≠ other := (ne_of_longer (Nat.lt_of_lt_of_le longer long)).symm
    obtain ⟨sameDraft, sameFields⟩ := started_of_ne drafts types apart variableName key type target
    rw [sameDraft, sameFields]
    exact agrees.settled other (Nat.le_of_lt (Nat.lt_of_lt_of_le longer long))

/-- A subtree under a new key: its field is settled once what lies below it has been drafted. -/
theorem taken_newNode (formed : types.Formed) (agrees : Agrees name.length drafts types) (nonempty : key ≠ "")
    (filled : Text.EndsFilled key.toList) (absent : types.field? name key = none) {children : PathTree.Branches}
    {path : List String} (tidy : PathTree.Tidy path children)
    (below : ∀ (type : String) (drafts : Drafts) (types : DerivedFields), types.Formed →
      Agrees type.length drafts types →
      Taken type.length drafts (drafts.visit type children) types (types.visit type children)) :
    let type := DerivedFields.nestedName name key
    Taken name.length drafts
      ((visit ((drafts.taking name (drafts.freshFor name key)).opened type) type children).adding name
        ⟨key, drafts.freshFor name key, .nested type⟩)
      types (((types.adding name key (.nested type)).opened type).visit type children) := by
  intro type
  have longer : name.length < type.length := DerivedFields.length_lt_nestedName name key
  have entered := formed.entered name key (.node children) nonempty filled
  rw [DerivedFields.entered_node absent] at entered
  have after := below type _ _ entered (agrees_started agrees longer (drafts.freshFor name key) key (.nested type))
  have present : name ∈ KeyedList.keys (((types.adding name key (.nested type)).opened type).visit type children) := by
    refine DerivedFields.visit_induction (motive := fun later => name ∈ KeyedList.keys later)
      (fun _ other wanted child _ _ listed => DerivedFields.mem_keys_entered listed other wanted child) tidy type ?_
    exact DerivedFields.mem_keys_opened.mpr (Or.inr (KeyedList.mem_keys_put.mpr (Or.inl rfl)))
  have unchanged {other : String} (different : name ≠ other) (short : other.length < type.length) :
      (visit ((drafts.taking name (drafts.freshFor name key)).opened type) type children).draftOf other =
          drafts.draftOf other ∧
        (((types.adding name key (.nested type)).opened type).visit type children).fieldsOf other =
          types.fieldsOf other :=
    let started := started_of_ne drafts types different (drafts.freshFor name key) key type (.nested type)
    ⟨(after.untouched other short).1.trans started.1, (after.untouched other short).2.trans started.2⟩
  -- Adding the field settles the name; longer names were settled below it, all others are as they were.
  refine ⟨after.formed, ⟨?_, fun other long => ?_⟩, fun other short => ?_⟩
  · rw [adding, KeyedList.keys_put, after.agrees.keys, if_pos present]
  · by_cases own : name = other
    · subst own
      obtain ⟨sameDraft, sameFields⟩ := after.untouched name longer
      rw [draftOf_opened] at sameDraft
      rw [sameFields, DerivedFields.fieldsOf_opened]
      exact draftOf_added agrees (Nat.le_refl _) (.nested type) sameDraft
    · rw [draftOf_adding, if_neg own]
      by_cases deep : type.length ≤ other.length
      · exact after.agrees.settled other deep
      · rw [(unchanged own (Nat.lt_of_not_le deep)).1, (unchanged own (Nat.lt_of_not_le deep)).2]
        exact agrees.settled other long
  · have own := ne_of_longer short
    rw [draftOf_adding, if_neg own]
    exact unchanged own (Nat.lt_trans short longer)

theorem taken_node (formed : types.Formed) (agrees : Agrees name.length drafts types) (nonempty : key ≠ "")
    (filled : Text.EndsFilled key.toList) {children : PathTree.Branches} {path : List String}
    (tidy : PathTree.Tidy path children)
    (below : ∀ (type : String) (drafts : Drafts) (types : DerivedFields), types.Formed →
      Agrees type.length drafts types →
      Taken type.length drafts (drafts.visit type children) types (types.visit type children)) :
    Taken name.length drafts (drafts.visitChild name key (.node children)) types
      (types.visitChild name key (.node children)) := by
  have same : drafts.field? name key = types.field? name key := agrees.field? (Nat.le_refl _)
  rw [visitChild, DerivedFields.visitChild]
  cases found : types.field? name key with
  | none =>
    simp only [same, found]
    exact taken_newNode formed agrees nonempty filled found tidy below
  | some field =>
    simp only [same, found]
    cases shape : field.target with
    | text =>
      have refers : field.referredType? = none := by
        simp [DerivedField.referredType?, DerivedField.declaredType, shape]
      simp only [refers]
      exact .refl formed agrees
    | nested type =>
      have nested : types.nested? name key = some type := by
        simp [DerivedFields.nested?, found, DerivedField.nestedType?, shape]
      have refers := DerivedField.referredType?_nested shape (formed.sound.nested name key type nested).2
      have longer : name.length < type.length :=
        formed.named name key type nested ▸ DerivedFields.length_lt_nestedName name key
      simp only [refers]
      have opened := Taken.opened formed agrees type
      have after := below type _ _ opened.formed (opened.agrees.raise (Nat.le_of_lt longer))
      exact opened.trans (after.lower (Nat.le_of_lt longer) opened.agrees)

/-! ## Whole trees -/

theorem taken_visit {branches : PathTree.Branches} {path : List String} (tidy : PathTree.Tidy path branches)
    (formed : types.Formed) (agrees : Agrees name.length drafts types) :
    Taken name.length drafts (drafts.visit name branches) types (types.visit name branches) := by
  -- The agreement that a branch leaves behind is the one that the next branch starts from.
  induction branches using PathTree.branches_induction generalizing path name drafts types with
  | nil =>
    rw [visit, DerivedFields.visit]
    exact .refl formed agrees
  | leaf key mapping rest others =>
    obtain ⟨nonempty, filled⟩ := tidy.endsFilled List.mem_cons_self
    have first := taken_leaf formed agrees nonempty filled mapping
    rw [visit, DerivedFields.visit]
    exact first.trans (others tidy.tail first.formed first.agrees)
  | node key children rest below others =>
    obtain ⟨nonempty, filled⟩ := tidy.endsFilled List.mem_cons_self
    have inner := tidy.child List.mem_cons_self
    have first := taken_node formed agrees nonempty filled inner fun _ _ _ => below inner
    rw [visit, DerivedFields.visit]
    exact first.trans (others tidy.tail first.formed first.agrees)

def ofTypes (types : DerivedFields) : Drafts := types.map fun (name, fields) => (name, settled fields)

theorem keys_ofTypes (types : DerivedFields) : KeyedList.keys (ofTypes types) = KeyedList.keys types := by
  simp [ofTypes, KeyedList.keys, Function.comp_def]

theorem get?_ofTypes (types : DerivedFields) (name : String) :
    KeyedList.get? name (ofTypes types) = (KeyedList.get? name types).map settled := by
  induction types with
  | nil => rfl
  | cons entry rest ih =>
    obtain ⟨first, fields⟩ := entry
    by_cases same : first = name
    · simp [ofTypes, KeyedList.get?, same]
    · simpa [ofTypes, KeyedList.get?, same] using ih

theorem agrees_ofTypes (types : DerivedFields) : Agrees 0 (ofTypes types) types where
  keys := keys_ofTypes types
  settled name _ := by
    rw [draftOf, get?_ofTypes, DerivedFields.fieldsOf]
    cases KeyedList.get? name types <;> rfl

theorem eq_ofTypes (distinct : (KeyedList.keys types).Nodup) (agrees : Agrees 0 drafts types) :
    drafts = ofTypes types := by
  refine KeyedList.eq_of_get? (agrees.keys ▸ distinct) (agrees.keys.trans (keys_ofTypes types).symm)
    fun name member => ?_
  obtain ⟨draft, found⟩ := Option.isSome_iff_exists.mp (KeyedList.isSome_get?.mpr member)
  obtain ⟨fields, given⟩ := Option.isSome_iff_exists.mp (KeyedList.isSome_get?.mpr (agrees.keys ▸ member))
  have value := agrees.settled name (Nat.zero_le _)
  rw [draftOf, found, Option.getD_some, DerivedFields.fieldsOf, given, Option.getD_some] at value
  rw [found, get?_ofTypes, given, value, Option.map_some]

theorem extended_ofTypes_of_tidy (formed : types.Formed) (name : String) {tree : PathTree.Branches}
    {path : List String} (tidy : PathTree.Tidy path tree) :
    (types.extended name tree).Formed ∧ extended (ofTypes types) name tree = ofTypes (types.extended name tree) := by
  have opened := Taken.opened formed (agrees_ofTypes types) name
  have after := taken_visit tidy opened.formed (opened.agrees.raise (Nat.zero_le name.length))
  have whole := opened.trans (after.lower (Nat.zero_le _) opened.agrees)
  exact ⟨whole.formed, eq_ofTypes whole.formed.sound.distinct whole.agrees⟩

theorem extended_ofTypes (formed : types.Formed) (name : String) (fields : List FieldMapping) :
    (types.extended name (PathTree.build fields)).Formed ∧
      extended (ofTypes types) name (PathTree.build fields) = ofTypes (types.extended name (PathTree.build fields)) :=
  extended_ofTypes_of_tidy formed name (PathTree.tidy_build fields)

theorem toTypes_ofTypes (types : DerivedFields) : (ofTypes types).toTypes = types.toTypes := by
  simp [toTypes, ofTypes, DerivedFields.toTypes, settled, Function.comp_def]

theorem draftOf_ofTypes (types : DerivedFields) (name : String) :
    (ofTypes types).draftOf name = settled (types.fieldsOf name) :=
  (agrees_ofTypes types).settled name (Nat.zero_le _)

/-- New drafts come after the old ones; fields and names given away come after those of a draft. -/
structure Extends (drafts later : Drafts) : Prop where
  keys : KeyedList.keys drafts <+: KeyedList.keys later
  fields : ∀ name, (drafts.draftOf name).fields <+: (later.draftOf name).fields
  taken : ∀ name, (drafts.draftOf name).taken <+: (later.draftOf name).taken

theorem Extends.refl (drafts : Drafts) : Extends drafts drafts :=
  ⟨List.prefix_rfl, fun _ => List.prefix_rfl, fun _ => List.prefix_rfl⟩

theorem extends_ofTypes {later : DerivedFields} (grown : DerivedFields.Extends types later) :
    Extends (ofTypes types) (ofTypes later) where
  keys := by
    rw [keys_ofTypes, keys_ofTypes]
    exact grown.keys
  fields name := by
    rw [draftOf_ofTypes, draftOf_ofTypes]
    exact grown.fields name
  taken name := by
    rw [draftOf_ofTypes, draftOf_ofTypes]
    exact (grown.fields name).map _

/--
Drafts and the fields of each draft have distinct names; the variable names of a draft are distinct and
just those it has given away; and every composite field leads to the draft that its place names.
-/
structure Consistent (drafts : Drafts) : Prop where
  names : (KeyedList.keys drafts).Nodup
  fields : ∀ name draft, (name, draft) ∈ drafts → (draft.fields.map (·.name)).Nodup
  variableNames : ∀ name draft, (name, draft) ∈ drafts → (draft.fields.map (·.variableName)).Nodup
  taken : ∀ name draft, (name, draft) ∈ drafts → draft.taken = draft.fields.map (·.variableName)
  composite : ∀ name draft, (name, draft) ∈ drafts → ∀ field ∈ draft.fields, field.declaredType ≠ "Edm.String" →
    field.declaredType = "graph." ++ (name ++ Identifier.memberName field.name) ∧
      name ++ Identifier.memberName field.name ∈ KeyedList.keys drafts

theorem consistent_ofTypes (formed : types.Formed) : Consistent (ofTypes types) := by
  have distinct : (KeyedList.keys (ofTypes types)).Nodup := keys_ofTypes types ▸ formed.sound.distinct
  have shape {name : String} {draft : Draft} (member : (name, draft) ∈ ofTypes types) :
      draft = settled (types.fieldsOf name) := by
    rw [← draftOf_ofTypes, draftOf, (KeyedList.get?_eq_some distinct).mpr member, Option.getD_some]
  refine ⟨distinct, fun name draft member => ?_, fun name draft member => ?_, fun name draft member => ?_,
    fun name draft member field listed other => ?_⟩
  · rw [shape member]
    exact formed.sound.names name
  · rw [shape member]
    exact formed.numbered name
  · rw [shape member]
    rfl
  · rw [shape member] at listed
    have found := formed.sound.field?_of_mem listed
    cases target : field.target with
    | text => simp [DerivedField.declaredType, target] at other
    | nested type =>
      have nested : types.nested? name field.name = some type := by
        simp [DerivedFields.nested?, found, DerivedField.nestedType?, target]
      obtain rfl := formed.named name field.name type nested
      rw [keys_ofTypes]
      refine ⟨?_, (formed.sound.nested name field.name _ nested).1⟩
      simp [DerivedField.declaredType, target, DeclaredType.catalogQualifier, DerivedFields.nestedName]

end Drafts

/-! ## Runs -/

namespace Drafting

variable {drafting : Drafting} {synthesis : Synthesis}

/-- A drafting stands for a synthesis: it holds the same types, and has frozen them if that is frozen. -/
structure Mirrors (drafting : Drafting) (synthesis : Synthesis) : Prop where
  formed : synthesis.types.Formed
  drafts : drafting.drafts = Drafts.ofTypes synthesis.types
  frozen : drafting.frozen = if synthesis.frozen then some synthesis.derived else none

theorem mirrors_nil : Mirrors {} {} := ⟨DerivedFields.formed_nil, rfl, rfl⟩

def frozenAnswer (types : List DerivedType) : SynthesisCall → SynthesisAnswer
  | .synthesize name _ => .refused (.frozen name)
  | .freeze => .types types

theorem answer_frozen {types : List DerivedType} (frozen : drafting.frozen = some types) (call : SynthesisCall) :
    drafting.answer call = (frozenAnswer types call, drafting) := by
  cases call with
  | synthesize name fields => simp only [answer, synthesize, frozen, frozenAnswer]
  | freeze => simp only [answer, freeze, frozen, frozenAnswer]

theorem after_frozen {types : List DerivedType} (frozen : drafting.frozen = some types) (calls : List SynthesisCall) :
    drafting.after calls = drafting := by
  induction calls with
  | nil => rfl
  | cons call rest ih =>
    rw [after, List.foldl_cons, answer_frozen frozen]
    exact ih

theorem frozen_freeze (drafting : Drafting) :
    ∃ types, drafting.freeze = (.types types, drafting.freeze.2) ∧ drafting.freeze.2.frozen = some types := by
  unfold freeze
  split
  · rename_i types frozen
    exact ⟨types, rfl, frozen⟩
  · exact ⟨_, rfl, rfl⟩

theorem called_frozen (frozen : synthesis.frozen = true) (call : SynthesisCall) : synthesis.called call = synthesis := by
  cases call with
  | synthesize name fields => simp [Synthesis.called, Synthesis.synthesize, frozen, Except.toOption]
  | freeze => rw [Synthesis.called, Synthesis.freeze, ← frozen]

theorem Mirrors.step (mirrors : Mirrors drafting synthesis) (call : SynthesisCall) :
    Mirrors (drafting.answer call).2 (synthesis.called call) ∧
      Drafts.Extends drafting.drafts (drafting.answer call).2.drafts := by
  cases stopped : synthesis.frozen with
  | true =>
    have frozen : drafting.frozen = some synthesis.derived := by rw [mirrors.frozen, stopped, if_pos rfl]
    rw [answer_frozen frozen, called_frozen stopped]
    exact ⟨mirrors, .refl _⟩
  | false =>
    have frozen : drafting.frozen = none := by rw [mirrors.frozen, stopped, if_neg Bool.false_ne_true]
    cases call with
    | synthesize name fields =>
      obtain ⟨formed, extended⟩ := Drafts.extended_ofTypes mirrors.formed name fields
      have grown := Drafts.extends_ofTypes (DerivedFields.extends_extended synthesis.types name fields)
      rw [← extended, ← mirrors.drafts] at grown
      have later : synthesis.called (.synthesize name fields) =
          { synthesis with types := synthesis.types.extended name (PathTree.build fields) } := by
        simp [Synthesis.called, Synthesis.synthesize, stopped, Except.toOption]
      simp only [answer, synthesize, frozen, later]
      exact ⟨⟨formed, by rw [mirrors.drafts, extended], by rw [stopped, if_neg Bool.false_ne_true]⟩, grown⟩
    | freeze =>
      simp only [answer, freeze, frozen, Synthesis.called, Synthesis.freeze]
      refine ⟨⟨mirrors.formed, mirrors.drafts, ?_⟩, .refl _⟩
      rw [if_pos rfl, mirrors.drafts, Drafts.toTypes_ofTypes]
      rfl

theorem Mirrors.after (mirrors : Mirrors drafting synthesis) (calls : List SynthesisCall) :
    Mirrors (drafting.after calls) (synthesis.after calls) := by
  induction calls generalizing drafting synthesis with
  | nil => exact mirrors
  | cons call rest ih => exact ih (mirrors.step call).1

/--
After any calls the drafts are consistent and stand for the derived types of a synthesis; a further call
only extends them; and after freezing nothing changes, no type is synthesized, and freezing gives the
same types again.
-/
theorem after_consistent (calls : List SynthesisCall) :
    let state : Drafting := Drafting.after {} calls
    state.drafts.Consistent ∧
    state.drafts.toTypes = (Synthesis.after {} calls).derived ∧
    (∀ call, state.drafts.Extends (state.answer call).2.drafts) ∧
    ∃ types, state.freeze.1 = .types types ∧
      ∀ later call, (state.freeze.2.after later).answer call = (frozenAnswer types call, state.freeze.2) := by
  intro state
  have mirrors : Mirrors state (Synthesis.after {} calls) := mirrors_nil.after calls
  have consistent := Drafts.consistent_ofTypes mirrors.formed
  rw [← mirrors.drafts] at consistent
  obtain ⟨types, given, frozen⟩ := frozen_freeze state
  refine ⟨consistent, ?_, fun call => (mirrors.step call).2, types, by rw [given], fun later call => ?_⟩
  · rw [mirrors.drafts, Drafts.toTypes_ofTypes]
    rfl
  · rw [after_frozen frozen, answer_frozen frozen]

end Drafting

end ProfileConnector
