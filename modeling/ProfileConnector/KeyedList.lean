/-!
Lists of keyed values in order of first insertion. Putting a value under a key that is present
replaces the value where it stands; the keys of a list made by putting are distinct.
-/

namespace ProfileConnector

abbrev KeyedList (κ ν : Type) := List (κ × ν)

namespace KeyedList

variable {κ ν : Type} [DecidableEq κ]

def get? (key : κ) : KeyedList κ ν → Option ν
  | [] => none
  | (k, v) :: rest => if k = key then some v else get? key rest

def put (key : κ) (value : ν) : KeyedList κ ν → KeyedList κ ν
  | [] => [(key, value)]
  | (k, v) :: rest => if k = key then (k, value) :: rest else (k, v) :: put key value rest

def ofPairs (pairs : List (κ × ν)) : KeyedList κ ν :=
  pairs.foldl (fun entries (key, value) => put key value entries) []

def keys (entries : KeyedList κ ν) : List κ := entries.map Prod.fst

theorem get?_put (key other : κ) (value : ν) (entries : KeyedList κ ν) :
    get? other (put key value entries) = if key = other then some value else get? other entries := by
  induction entries with
  | nil => rfl
  | cons entry rest ih =>
    obtain ⟨k, v⟩ := entry
    by_cases hk : k = key
    · subst hk
      by_cases h : k = other <;> simp [put, get?, h]
    · by_cases h : k = other
      · subst h
        simp [put, get?, hk, Ne.symm hk]
      · simp [put, get?, hk, h, ih]

theorem mem_keys_of_get? {key : κ} {value : ν} {entries : KeyedList κ ν} (found : get? key entries = some value) :
    key ∈ keys entries := by
  induction entries with
  | nil => cases found
  | cons entry rest ih =>
    obtain ⟨k, v⟩ := entry
    by_cases same : k = key
    · simp [keys, same]
    · rw [get?, if_neg same] at found
      exact List.mem_cons_of_mem k (ih found)

theorem mem_of_get? {key : κ} {value : ν} {entries : KeyedList κ ν} (found : get? key entries = some value) :
    (key, value) ∈ entries := by
  induction entries with
  | nil => cases found
  | cons entry rest ih =>
    obtain ⟨k, v⟩ := entry
    by_cases same : k = key
    · subst same
      simp only [get?, if_true, Option.some.injEq] at found
      exact found ▸ List.mem_cons_self
    · rw [get?, if_neg same] at found
      exact List.mem_cons_of_mem _ (ih found)

theorem get?_eq_some {key : κ} {value : ν} {entries : KeyedList κ ν} (distinct : (keys entries).Nodup) :
    get? key entries = some value ↔ (key, value) ∈ entries := by
  refine ⟨mem_of_get?, fun member => ?_⟩
  induction entries with
  | nil => cases member
  | cons entry rest ih =>
    obtain ⟨k, v⟩ := entry
    obtain ⟨fresh, others⟩ := List.nodup_cons.mp distinct
    rcases List.mem_cons.mp member with equal | later
    · cases equal
      simp [get?]
    · have different : k ≠ key := fun same => fresh (List.mem_map.mpr ⟨_, later, same.symm⟩)
      rw [get?, if_neg different]
      exact ih others later

theorem get?_eq_none {key : κ} {entries : KeyedList κ ν} (absent : key ∉ keys entries) :
    get? key entries = none := by
  cases found : get? key entries with
  | none => rfl
  | some value => exact absurd (mem_keys_of_get? found) absent

theorem isSome_get? {key : κ} {entries : KeyedList κ ν} : (get? key entries).isSome ↔ key ∈ keys entries := by
  refine ⟨fun found => ?_, fun member => ?_⟩
  · obtain ⟨value, given⟩ := Option.isSome_iff_exists.mp found
    exact mem_keys_of_get? given
  · induction entries with
    | nil => cases member
    | cons entry rest ih =>
      obtain ⟨k, v⟩ := entry
      by_cases same : k = key
      · simp [get?, same]
      · rw [get?, if_neg same]
        rcases List.mem_cons.mp member with here | later
        · exact absurd here.symm same
        · exact ih later

theorem get?_append (key : κ) (first second : KeyedList κ ν) :
    get? key (first ++ second) = (get? key first).or (get? key second) := by
  induction first with
  | nil => rfl
  | cons entry rest ih =>
    obtain ⟨k, v⟩ := entry
    by_cases same : k = key <;> simp [get?, same, ih]

theorem eq_of_get? {first second : KeyedList κ ν} (distinct : (keys first).Nodup) (same : keys first = keys second)
    (each : ∀ key ∈ keys first, get? key first = get? key second) : first = second := by
  induction first generalizing second with
  | nil => exact (List.map_eq_nil_iff.mp same.symm).symm
  | cons entry rest ih =>
    obtain ⟨k, v⟩ := entry
    cases second with
    | nil => cases same
    | cons other others =>
      obtain ⟨k', v'⟩ := other
      obtain ⟨fresh, apart⟩ := List.nodup_cons.mp distinct
      obtain ⟨rfl, sameRest⟩ := List.cons.inj same
      have value := each k List.mem_cons_self
      simp only [get?, if_true, Option.some.injEq] at value
      refine value ▸ congrArg _ (ih apart sameRest fun key member => ?_)
      have different : k ≠ key := fun here => fresh (here ▸ member)
      have later := each key (List.mem_cons_of_mem k member)
      rwa [get?, get?, if_neg different, if_neg different] at later

theorem mem_put {key : κ} {value : ν} {entries : KeyedList κ ν} {entry : κ × ν}
    (member : entry ∈ put key value entries) : entry = (key, value) ∨ entry ∈ entries := by
  induction entries with
  | nil => exact Or.inl (List.mem_singleton.mp member)
  | cons first rest ih =>
    obtain ⟨k, v⟩ := first
    by_cases same : k = key
    · rw [put, if_pos same] at member
      rcases List.mem_cons.mp member with here | later
      · exact Or.inl (same ▸ here)
      · exact Or.inr (List.mem_cons_of_mem _ later)
    · rw [put, if_neg same] at member
      rcases List.mem_cons.mp member with here | later
      · exact Or.inr (here ▸ List.mem_cons_self)
      · exact (ih later).imp id (List.mem_cons_of_mem _)

theorem put_ne_nil (key : κ) (value : ν) (entries : KeyedList κ ν) : put key value entries ≠ [] := by
  cases entries with
  | nil => simp [put]
  | cons entry rest =>
    obtain ⟨k, v⟩ := entry
    by_cases same : k = key <;> simp [put, same]

theorem put_put (key : κ) (first second : ν) (entries : KeyedList κ ν) :
    put key second (put key first entries) = put key second entries := by
  induction entries with
  | nil => simp [put]
  | cons entry rest ih =>
    obtain ⟨k, v⟩ := entry
    by_cases same : k = key <;> simp [put, same, ih]

theorem put_of_get? {key : κ} {value : ν} {entries : KeyedList κ ν} (found : get? key entries = some value) :
    put key value entries = entries := by
  induction entries with
  | nil => cases found
  | cons entry rest ih =>
    obtain ⟨k, v⟩ := entry
    by_cases same : k = key
    · simp only [get?, if_pos same, Option.some.injEq] at found
      rw [put, if_pos same, found]
    · rw [get?, if_neg same] at found
      rw [put, if_neg same, ih found]

theorem put_eq_append {key : κ} {value : ν} {entries : KeyedList κ ν} (absent : key ∉ keys entries) :
    put key value entries = entries ++ [(key, value)] := by
  induction entries with
  | nil => rfl
  | cons entry rest ih =>
    obtain ⟨k, v⟩ := entry
    have different : k ≠ key := fun same => absent (same ▸ List.mem_cons_self)
    rw [put, if_neg different, ih fun later => absent (List.mem_cons_of_mem _ later)]
    rfl

theorem put_append {key : κ} {first : KeyedList κ ν} (absent : key ∉ keys first) (value : ν) (second : KeyedList κ ν) :
    put key value (first ++ second) = first ++ put key value second := by
  induction first with
  | nil => rfl
  | cons entry rest ih =>
    obtain ⟨k, v⟩ := entry
    have different : k ≠ key := fun same => absent (same ▸ List.mem_cons_self)
    rw [List.cons_append, put, if_neg different, ih fun later => absent (List.mem_cons_of_mem k later)]
    rfl

theorem ofPairs_eq {pairs : List (κ × ν)} (distinct : (keys pairs).Nodup) : ofPairs pairs = pairs := by
  have grown (entries : KeyedList κ ν) (all : (keys (entries ++ pairs)).Nodup) :
      pairs.foldl (fun entries (key, value) => put key value entries) entries = entries ++ pairs := by
    clear distinct
    induction pairs generalizing entries with
    | nil => simp
    | cons pair rest ih =>
      obtain ⟨key, value⟩ := pair
      have absent : key ∉ keys entries := by
        intro present
        rw [keys, List.map_append, List.map_cons] at all
        exact (List.nodup_append.mp all).2.2 key present key List.mem_cons_self rfl
      simp only [List.foldl_cons]
      rw [put_eq_append absent, ih _ (by simpa using all)]
      simp
  exact grown [] distinct

theorem keys_put (key : κ) (value : ν) (entries : KeyedList κ ν) :
    keys (put key value entries) =
      if key ∈ keys entries then keys entries else keys entries ++ [key] := by
  induction entries with
  | nil => rfl
  | cons entry rest ih =>
    obtain ⟨k, v⟩ := entry
    by_cases hk : k = key
    · simp [put, keys, hk]
    · have unfolded : keys (put key value ((k, v) :: rest)) = k :: keys (put key value rest) := by
        simp [put, keys, hk]
      have listed : key ∈ keys ((k, v) :: rest) ↔ key ∈ keys rest := by
        simp [keys, Ne.symm hk]
      rw [unfolded, ih]
      by_cases present : key ∈ keys rest
      · rw [if_pos present, if_pos (listed.mpr present)]
        rfl
      · rw [if_neg present, if_neg (fun h => present (listed.mp h))]
        rfl

theorem mem_keys_put {key other : κ} {value : ν} {entries : KeyedList κ ν} :
    other ∈ keys (put key value entries) ↔ other = key ∨ other ∈ keys entries := by
  rw [← isSome_get?, get?_put, ← isSome_get?]
  by_cases same : key = other
  · simp [same]
  · simp [same, Ne.symm same]

theorem nodup_keys_put (key : κ) (value : ν) {entries : KeyedList κ ν} (distinct : (keys entries).Nodup) :
    (keys (put key value entries)).Nodup := by
  rw [keys_put]
  split
  · exact distinct
  · rename_i absent
    refine List.nodup_append.mpr ⟨distinct, by simp, ?_⟩
    intro a member b single equal
    rw [List.mem_singleton] at single
    subst single equal
    exact absent member

/-- Of the values put under one key the last one counts. -/
theorem get?_ofPairs (key : κ) (pairs : List (κ × ν)) : get? key (ofPairs pairs) = get? key pairs.reverse := by
  have grown (entries : KeyedList κ ν) :
      get? key (pairs.foldl (fun entries (key, value) => put key value entries) entries) =
        (get? key pairs.reverse).or (get? key entries) := by
    induction pairs generalizing entries with
    | nil => rfl
    | cons pair rest ih =>
      obtain ⟨k, v⟩ := pair
      rw [List.foldl_cons, ih, List.reverse_cons, get?_append, Option.or_assoc, get?_put]
      by_cases same : k = key <;> simp [get?, same]
  rw [ofPairs, grown, get?, Option.or_none]

theorem nodup_keys_ofPairs (pairs : List (κ × ν)) : (keys (ofPairs pairs)).Nodup := by
  have grown (entries : KeyedList κ ν) (distinct : (keys entries).Nodup) :
      (keys (pairs.foldl (fun entries (key, value) => put key value entries) entries)).Nodup := by
    induction pairs generalizing entries with
    | nil => exact distinct
    | cons pair rest ih => exact ih _ (nodup_keys_put _ _ distinct)
  exact grown [] List.nodup_nil

theorem mem_keys_ofPairs {key : κ} {pairs : List (κ × ν)} : key ∈ keys (ofPairs pairs) ↔ key ∈ keys pairs := by
  rw [← isSome_get?, get?_ofPairs, isSome_get?]
  simp [keys]

theorem ofPairs_concat (pairs : List (κ × ν)) (key : κ) (value : ν) :
    ofPairs (pairs ++ [(key, value)]) = put key value (ofPairs pairs) := by
  rw [ofPairs, List.foldl_append]
  rfl

theorem keys_ofPairs (pairs : List (κ × ν)) : keys (ofPairs pairs) = (keys pairs).eraseDups := by
  suffices backwards : ∀ reversed : List (κ × ν),
      keys (ofPairs reversed.reverse) = (keys reversed.reverse).eraseDups by
    simpa using backwards pairs.reverse
  intro reversed
  induction reversed with
  | nil => rfl
  | cons pair rest ih =>
    obtain ⟨key, value⟩ := pair
    have listed : key ∈ keys (ofPairs rest.reverse) ↔ key ∈ keys rest.reverse := mem_keys_ofPairs
    have grown : keys (rest.reverse ++ [(key, value)]) = keys rest.reverse ++ [key] := List.map_append
    rw [List.reverse_cons, ofPairs_concat, keys_put, grown, List.eraseDups_append, ← ih]
    by_cases present : key ∈ keys rest.reverse
    · simp [if_pos (listed.mpr present), List.removeAll, present]
    · simp [if_neg (mt listed.mp present), List.removeAll, List.eraseDups_cons, present]

end KeyedList

end ProfileConnector
