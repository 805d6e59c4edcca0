import ProfileConnector.Proofs.Path.Segments

/-!
Paths cut behind a wildcard. What stands in front of the first wildcard and the wildcard itself are the root;
its normal form ends in the wildcard, so a root is read as its normal form is.
-/

namespace ProfileConnector.Path

open Outcome Text

def wildcardText : Text := [.scalar '[', .scalar '*', .scalar ']']

/-! ## Cuts -/

theorem cutAtWildcard_parts {path root behind : Text} (cut : cutAtWildcard path = some (root, behind)) :
    ∃ front, root = front ++ wildcardText ∧ path = root ++ behind := by
  fun_induction cutAtWildcard path generalizing root with
  | case1 => cases cut
  | case2 rest =>
    cases cut
    exact ⟨[], rfl, rfl⟩
  | case3 point rest different ih =>
    obtain ⟨⟨inner, after⟩, found, same⟩ := Option.map_eq_some_iff.mp cut
    cases same
    obtain ⟨front, rfl, rfl⟩ := ih found
    exact ⟨point :: front, rfl, rfl⟩

theorem cutAtWildcard_ok {path root behind : Text} (cut : cutAtWildcard path = some (root, behind)) :
    path = root ++ behind := by
  obtain ⟨_, _, whole⟩ := cutAtWildcard_parts cut
  exact whole

theorem cutAtWildcard_append {root : Text} (ends : cutAtWildcard root = some (root, [])) (relative : Text) :
    cutAtWildcard (root ++ relative) = some (root, relative) := by
  fun_induction cutAtWildcard root with
  | case1 => cases ends
  | case2 rest =>
    cases ends
    rfl
  | case3 point rest different ih =>
    obtain ⟨⟨inner, behind⟩, found, same⟩ := Option.map_eq_some_iff.mp ends
    cases same
    match rest, found with
    | a :: b :: c, found =>
      rw [List.cons_append, List.cons_append, List.cons_append, cutAtWildcard, ← List.cons_append,
        ← List.cons_append, ih found, Option.map_some]
      intro others first whole
      cases first
      cases whole
      exact different _ rfl rfl
    | [a], found => simp [cutAtWildcard] at found

theorem splitArrayRoot_ok {path root relative : Text} (split : splitArrayRoot path = some (root, relative)) :
    ∃ front behind, root = front ++ wildcardText ∧ path = front ++ (wildcardText ++ behind) ∧
      (behind = relative ∨ behind = .scalar '.' :: relative) := by
  obtain ⟨⟨_, behind⟩, cut, same⟩ := Option.map_eq_some_iff.mp split
  cases same
  obtain ⟨front, rfl, rfl⟩ := cutAtWildcard_parts cut
  refine ⟨front, behind, rfl, List.append_assoc _ _ _, ?_⟩
  split
  · exact .inr rfl
  · exact .inl rfl

/-! ## Trimmed paths -/

theorem getLast?_append_wildcard (front : Text) : (front ++ wildcardText).getLast? = some (.scalar ']') := by
  rw [wildcardText, List.getLast?_append_of_ne_nil _ (by simp)]
  rfl

theorem trim_eq (front behind : Text) : Text.trim (front ++ (wildcardText ++ behind)) =
    front.dropWhile isBlankPoint ++ (wildcardText ++ behind.rdropWhile isBlankPoint) := by
  have start : (front ++ (wildcardText ++ behind)).dropWhile isBlankPoint =
      front.dropWhile isBlankPoint ++ (wildcardText ++ behind) := by
    rw [List.dropWhile_append]
    split
    · rename_i blank
      rw [List.isEmpty_iff.mp blank]
      rfl
    · rfl
  rw [Text.trim, trimBy_eq_rdropWhile, start, ← List.append_assoc, ← List.append_assoc, rdropWhile_append]
  intro point last
  rw [getLast?_append_wildcard, Option.mem_some_iff] at last
  subst last
  rfl

theorem trim_root (front : Text) :
    Text.trim (front ++ wildcardText) = front.dropWhile isBlankPoint ++ wildcardText := by
  simpa using trim_eq front []

/-- A path that is read as it is written, from the root or a bracket on. -/
def Rooted (path : Text) : Prop :=
  (Text.trim path).head? = some (.scalar '$') ∨ (Text.trim path).head? = some (.scalar '[')

def unrooted : Text → Text
  | .scalar '$' :: rest => rest
  | t => t

theorem unrooted_of_ne {t : Text} (noDollar : t.head? ≠ some (.scalar '$')) : unrooted t = t := by
  unfold unrooted
  split
  · simp at noDollar
  · rfl

theorem unrooted_append (front behind : Text) :
    unrooted (front ++ (wildcardText ++ behind)) = unrooted front ++ (wildcardText ++ behind) := by
  match front with
  | [] => rfl
  | point :: front =>
    by_cases dollar : point = .scalar '$'
    · rw [dollar]
      rfl
    · rw [List.cons_append, unrooted_of_ne (by simpa using dollar), unrooted_of_ne (by simpa using dollar),
        List.cons_append]

theorem normalize_of_rooted {path : Text} (rooted : Rooted path) :
    normalize path = .scalar '$' :: unrooted (Text.trim path) := by
  unfold normalize
  split
  · rename_i blank
    simp [Rooted, blank] at rooted
  · rename_i rest shape
    rw [shape]
    rfl
  · rename_i rest shape
    rw [shape]
    rfl
  · rename_i trimmed noDollar noBracket
    unfold Rooted at rooted
    cases shape : Text.trim path with
    | nil => simp [shape] at rooted
    | cons point rest =>
      rw [shape, List.head?_cons, Option.some.injEq, Option.some.injEq] at rooted
      rcases rooted with rfl | rfl
      · exact absurd shape (noDollar rest)
      · exact absurd shape (noBracket rest)

theorem steps_of_rooted {path : Text} (rooted : Rooted path) : steps path = scan (unrooted (Text.trim path)) := by
  rw [steps, normalize_of_rooted rooted]
  rfl

theorem rdropWhile_dollar (rest : Text) :
    (CodePoint.scalar '$' :: rest).rdropWhile isBlankPoint = .scalar '$' :: rest.rdropWhile isBlankPoint :=
  rdropWhile_append [CodePoint.scalar '$'] (by simp; rfl)

theorem normalize_dollar (rest : Text) : normalize (.scalar '$' :: rest) = .scalar '$' :: rest.rdropWhile isBlankPoint := by
  have trimmed : Text.trim (.scalar '$' :: rest) = .scalar '$' :: rest.rdropWhile isBlankPoint := rdropWhile_dollar rest
  rw [normalize_of_rooted (.inl (by rw [trimmed]; rfl)), trimmed]
  rfl

/-! ## Roots in normal form -/

theorem normalize_shape (path : Text) : normalize path = [] ∨ ∃ rest, normalize path = .scalar '$' :: rest := by
  unfold normalize
  split
  · exact .inl rfl
  · exact .inr ⟨_, rfl⟩
  · exact .inr ⟨_, rfl⟩
  · split
    · exact .inl rfl
    · exact .inr ⟨_, rfl⟩

theorem getLast?_encode {segment : Text} (ends : segment.getLast? = some (.scalar ']')) :
    (encode segment).getLast? = some (.scalar ']') := by
  unfold encode
  split
  · cases segment with
    | nil => cases ends
    | cons point rest => rwa [List.getLast?_cons_cons]
  · rw [← List.cons_append, ← List.cons_append, List.getLast?_append_of_ne_nil _ (by simp)]
    rfl

theorem segments_wildcard (front : Text) : ∃ before first, ∀ behind, segments (front ++ (wildcardText ++ behind)) =
    before ++ (first ++ (wildcardText ++ (cut (Cursor.after {} (front ++ wildcardText)) behind).1)) ::
      (cut (Cursor.after {} (front ++ wildcardText)) behind).2 :=
  segments_block (by simp [wildcardText]) (by simp [wildcardText]) front

theorem getLast?_normalize_root (front : Text) :
    ((normalize (front ++ wildcardText)).drop 1).getLast? = some (.scalar ']') := by
  by_cases rooted : Rooted (front ++ wildcardText)
  · have shape := unrooted_append (front.dropWhile isBlankPoint) []
    rw [List.append_nil] at shape
    rw [normalize_of_rooted rooted, trim_root, shape]
    exact getLast?_append_wildcard _
  · obtain ⟨noDollar, noBracket⟩ := not_or.mp rooted
    obtain ⟨before, first, parts⟩ := segments_wildcard (front.dropWhile isBlankPoint)
    have own := parts []
    simp only [List.append_nil, cut] at own
    have ends := getLast?_encode (getLast?_append_wildcard first)
    have some : encode (first ++ wildcardText) ≠ [] := by
      intro empty
      simp [empty] at ends
    rw [normalize_eq noDollar noBracket, trim_root, own, List.flatMap_append, List.flatMap_singleton,
      List.getLast?_append_of_ne_nil _ some, ends]

theorem normalize_root (front : Text) :
    normalize (normalize (front ++ wildcardText)) = normalize (front ++ wildcardText) := by
  have ends := getLast?_normalize_root front
  rcases normalize_shape (front ++ wildcardText) with empty | ⟨rest, shape⟩
  · simp [empty] at ends
  · rw [shape, List.drop_one, List.tail_cons] at ends
    have kept : rest.rdropWhile isBlankPoint = rest := List.rdropWhile_eq_self_iff.mpr fun some => by
      rw [List.getLast?_eq_some_getLast some, Option.some.injEq] at ends
      rw [ends]
      decide
    rw [shape, normalize_dollar, kept]

end ProfileConnector.Path
