import ProfileConnector.Catalog.Document
import ProfileConnector.Proofs.Value.Reader

/-!
Loading of catalogs. Apart from texts that are nested too deep a text leads to a catalog or to one of
the catalog's own faults, whatever values stand in it, with one exception: a list or a record as the
name of a type, if no name before it is repeated.
-/

namespace ProfileConnector.Catalog

def LoadFault.isOwn : LoadFault → Bool
  | .unreadable => true
  | .malformed _ => true
  | .duplicate _ => true
  | .notAKey => false
  | .tooDeep => false

namespace Document

/-! ## Names of types -/

/-- A name is there that cannot be a key, and those before it are distinct from each other. -/
def Strays (names : List Value) : Prop :=
  ∃ before name after, names = before ++ name :: after ∧ isKey name = false ∧
    before.Pairwise fun earlier later => sameKey later earlier = false

theorem nameFault?_eq_notAKey {seen names : List Value} : nameFault? seen names = some .notAKey ↔
    ∃ before name after, names = before ++ name :: after ∧ isKey name = false ∧
      (before.Pairwise fun earlier later => sameKey later earlier = false) ∧
      ∀ other ∈ before, ∀ earlier ∈ seen, sameKey other earlier = false := by
  -- The names seen so far grow from the front: the first stray name counts only if no name before it repeats.
  induction names generalizing seen with
  | nil => simp [nameFault?]
  | cons name rest ih =>
    rw [nameFault?]
    by_cases stray : isKey name = false
    · simp only [stray, Bool.not_false, if_true, true_iff]
      exact ⟨[], name, rest, rfl, stray, .nil, by simp⟩
    · rw [if_neg (by simpa using stray)]
      by_cases again : seen.any (sameKey name) = true
      · rw [if_pos again]
        refine iff_of_false (by simp) ?_
        rintro ⟨_ | ⟨first, before⟩, other, after, split, notKey, _, fresh⟩
        · obtain ⟨rfl, _⟩ := List.cons.inj split
          exact stray notKey
        · obtain ⟨rfl, _⟩ := List.cons.inj split
          obtain ⟨earlier, listed, same⟩ := List.any_eq_true.mp again
          exact absurd (fresh name List.mem_cons_self earlier listed) (by simp [same])
      · have fresh : ∀ earlier ∈ seen, sameKey name earlier = false := by simpa using again
        rw [if_neg again, ih]
        constructor
        · rintro ⟨before, other, after, rfl, notKey, distinct, apart⟩
          refine ⟨name :: before, other, after, rfl, notKey, List.pairwise_cons.mpr ⟨?_, distinct⟩, ?_⟩
          · exact fun later listed => apart later listed name List.mem_cons_self
          · exact List.forall_mem_cons.mpr
              ⟨fresh, fun later listed earlier before => apart later listed earlier (List.mem_cons_of_mem name before)⟩
        · rintro ⟨_ | ⟨first, before⟩, other, after, split, notKey, distinct, apart⟩
          · obtain ⟨rfl, _⟩ := List.cons.inj split
            exact absurd notKey stray
          · obtain ⟨rfl, rfl⟩ := List.cons.inj split
            obtain ⟨first, distinct⟩ := List.pairwise_cons.mp distinct
            refine ⟨before, other, after, rfl, notKey, distinct, fun later listed => ?_⟩
            exact List.forall_mem_cons.mpr ⟨first later listed, apart later (List.mem_cons_of_mem name listed)⟩

theorem nameFault?_strays {names : List Value} : nameFault? [] names = some .notAKey ↔ Strays names := by
  simp [nameFault?_eq_notAKey, Strays]

theorem nameFault?_eq_some {seen names : List Value} {fault : LoadFault} (found : nameFault? seen names = some fault) :
    fault = .notAKey ∨ ∃ name, fault = .duplicate (.duplicateType name) := by
  induction names generalizing seen with
  | nil => cases found
  | cons name rest ih =>
    rw [nameFault?] at found
    split at found
    · cases found
      exact .inl rfl
    · split at found
      · cases found
        exact .inr ⟨_, rfl⟩
      · exact ih found

/-! ## Documents -/

/-- A document came out, or one of the catalog's own faults. -/
def Answered (outcome : Except LoadFault Document) : Prop :=
  (∃ document, outcome = .ok document) ∨ ∃ fault, outcome = .error fault ∧ fault.isOwn = true

@[simp] theorem answered_ok (document : Document) : Answered (.ok document) := .inl ⟨document, rfl⟩

@[simp] theorem answered_error {fault : LoadFault} : Answered (.error fault) ↔ fault.isOwn = true := by
  simp [Answered]

theorem load_unread {cs : List Char} {fault : Value.ReadFault} (reading : Value.ofChars? cs = .error fault) :
    Answered (load (some cs)) ↔ fault ≠ .tooDeep := by
  cases fault <;> simp [load, reading, LoadFault.isOwn]

theorem load_malformed {cs : List Char} {value : Value} {fault : DocumentFault} (reading : Value.ofChars? cs = .ok value)
    (parsed : read value = .error fault) : Answered (load (some cs)) := by
  cases fault <;> simp [load, reading, parsed, LoadFault.isOwn]

theorem load_document {cs : List Char} {value : Value} {document : Document} (reading : Value.ofChars? cs = .ok value)
    (parsed : read value = .ok document) :
    Answered (load (some cs)) ↔ ¬ Strays (document.types.map (·.name)) := by
  rw [← nameFault?_strays]
  cases names : nameFault? [] (document.types.map (·.name)) with
  | none => simp [load, reading, parsed, names]
  | some fault =>
    rcases nameFault?_eq_some names with rfl | ⟨name, rfl⟩ <;> simp [load, reading, parsed, names, LoadFault.isOwn]

/--
A text leads to a document or to a fault of the catalog's own just if it is not nested too deep and,
where it describes a document, no list or record stands as the name of a type before the first
repeated name. Lists and records cannot be nested too deep without more brackets than the limit.
-/
theorem load_answered (cs : List Char) :
    (Answered (load (some cs)) ↔ Value.ofChars? cs ≠ .error .tooDeep ∧
      ∀ value document, Value.ofChars? cs = .ok value → read value = .ok document →
        ¬ Strays (document.types.map (·.name))) ∧
    (Value.openings cs ≤ Value.nestingLimit → Value.ofChars? cs ≠ .error .tooDeep) := by
  refine ⟨?_, fun few deep => Nat.not_lt_of_le few (Value.nestingLimit_lt_openings deep)⟩
  cases reading : Value.ofChars? cs with
  | error fault => simp [load_unread reading]
  | ok value =>
    cases parsed : read value with
    | error fault =>
      refine iff_of_true (load_malformed reading parsed) ⟨nofun, fun other document same described => ?_⟩
      cases same
      cases parsed.symm.trans described
    | ok document =>
      rw [load_document reading parsed]
      refine ⟨fun ordered => ⟨nofun, fun other described same also => ?_⟩, fun each => each.2 value document rfl parsed⟩
      cases same
      cases parsed.symm.trans also
      exact ordered

def unnamed : String := "\x7b\"types\": [\x7b\"name\": []\x7d]\x7d"

theorem load_unnamed : ¬ ∀ cs : List Char, Answered (load (some cs)) := by
  have stray : (match load (some unnamed.toList) with | .error .notAKey => true | _ => false) = true := by
    decide +kernel
  intro always
  rcases always unnamed.toList with ⟨document, loaded⟩ | ⟨fault, failed, own⟩
  · simp [loaded] at stray
  · rw [failed] at stray
    cases fault <;> simp [LoadFault.isOwn] at own stray

end Document

end ProfileConnector.Catalog
