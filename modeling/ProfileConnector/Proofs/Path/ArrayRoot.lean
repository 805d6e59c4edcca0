import ProfileConnector.Proofs.Path.Cut
import ProfileConnector.Proofs.Path.Reached
import ProfileConnector.Row.Read

/-!
Array roots. A path is cut behind its first wildcard, as it stands; whether it reaches the same from the
entries of the root depends on whether the wildcard is one for the reader of steps as well.
-/

namespace ProfileConnector.Path

open Outcome Text

/-- What the path behind an array root reaches from an entry on. -/
def selectFrom (relative : Text) (entry : Value) : Except Fault (List Value) :=
  if relative.isEmpty then .ok [entry]
  else if relative.head? = some (.scalar '[') then select relative entry
  else select (Text.ofString "$." ++ relative) entry

/--
Whatever a path reaches in a document is what its relative part reaches from the entries of its root, one
after the other, if all of this can be read.
-/
def SplitAgrees (path root relative : Text) : Prop :=
  ∀ document values entries parts, select path document = .ok values → Row.matched document root = .ok entries →
    entries.mapM (selectFrom relative) = .ok parts → values = parts.flatten

def relativeSteps (relative : Text) : Except Fault (List Step) :=
  if relative.isEmpty then .ok []
  else if relative.head? = some (.scalar '[') then steps relative
  else steps (Text.ofString "$." ++ relative)

/-! ## Steps -/

theorem select_eq (path : Text) (document : Value) : select path document = (steps path).map (reached · document) := by
  unfold select
  cases steps path <;> rfl

theorem selectFrom_eq (relative : Text) (entry : Value) :
    selectFrom relative entry = (relativeSteps relative).map (reached · entry) := by
  unfold selectFrom relativeSteps
  split
  · rfl
  · split
    · exact select_eq _ _
    · exact select_eq _ _

theorem matched_root (front : Text) (document : Value) : Row.matched document (front ++ wildcardText) =
    ((steps (front ++ wildcardText)).map (reached · document)).mapError fun _ => .unreadable := by
  rw [Row.matched, select_eq, steps, normalize_root, ← steps]

theorem agrees_iff {path front relative : Text} {whole first others : List Step} (own : steps path = .ok whole)
    (root : steps (front ++ wildcardText) = .ok first) (behind : relativeSteps relative = .ok others) :
    SplitAgrees path (front ++ wildcardText) relative ↔ whole = first ++ others := by
  have entries (document : Value) : Row.matched document (front ++ wildcardText) = .ok (reached first document) := by
    rw [matched_root, root]
    rfl
  have parts (document : Value) : (reached first document).mapM (selectFrom relative) =
      .ok ((reached first document).map (reached others)) :=
    mapM_eq_map fun entry _ => by
      rw [selectFrom_eq, behind]
      rfl
  have values (document : Value) : select path document = .ok (reached whole document) := by
    rw [select_eq, own]
    rfl
  constructor
  · intro agrees
    -- Steps are determined by what they reach in all documents.
    apply reached_injective
    funext document
    rw [reached_append]
    exact agrees document _ _ _ (values document) (entries document) (parts document)
  · rintro rfl document found met read holds reads each
    rw [values, Except.ok.injEq] at holds
    rw [entries, Except.ok.injEq] at reads
    rw [← reads, parts, Except.ok.injEq] at each
    rw [← holds, ← each, reached_append]
    rfl

theorem agrees_of_inTurn {path front relative : Text}
    (turns : steps path = inTurn (steps (front ++ wildcardText)) (relativeSteps relative)) :
    SplitAgrees path (front ++ wildcardText) relative := by
  intro document values entries parts found
  have holds := found
  rw [select_eq, map_eq_ok] at holds
  obtain ⟨whole, own, _⟩ := holds
  obtain ⟨first, others, root, behind, same⟩ := inTurn_eq_ok.mp (turns.symm.trans own)
  exact (agrees_iff own root behind).mpr same.symm document values entries parts found

theorem rdropWhile_dot (t : Text) :
    (CodePoint.scalar '.' :: t).rdropWhile isBlankPoint = .scalar '.' :: t.rdropWhile isBlankPoint :=
  rdropWhile_append [CodePoint.scalar '.'] (by simp; rfl)

theorem relativeSteps_eq {relative behind : Text} (shape : behind = relative ∨ behind = .scalar '.' :: relative) :
    relativeSteps relative = scan (behind.rdropWhile isBlankPoint) := by
  have dotted : scan (behind.rdropWhile isBlankPoint) = scan (relative.rdropWhile isBlankPoint) := by
    rcases shape with rfl | rfl
    · rfl
    · rw [rdropWhile_dot, scan_dot]
  rw [dotted]
  match relative with
  | [] => exact scan_nil.symm
  | point :: rest =>
    simp only [relativeSteps, List.isEmpty_cons, Bool.false_eq_true, if_false, List.head?_cons, Option.some.injEq]
    split
    · rename_i bracket
      subst bracket
      have trimmed : Text.trim (.scalar '[' :: rest) = (CodePoint.scalar '[' :: rest).rdropWhile isBlankPoint := rfl
      have own : (CodePoint.scalar '[' :: rest).rdropWhile isBlankPoint = .scalar '[' :: rest.rdropWhile isBlankPoint :=
        rdropWhile_append [CodePoint.scalar '['] (by simp; rfl)
      rw [steps_of_rooted (.inr (by rw [trimmed, own]; rfl)), trimmed, own]
      rfl
    · have trimmed : Text.trim (Text.ofString "$." ++ point :: rest) =
          Text.ofString "$." ++ (point :: rest).rdropWhile isBlankPoint :=
        rdropWhile_append (Text.ofString "$.") (by decide)
      rw [steps_of_rooted (.inl (by rw [trimmed]; rfl)), trimmed]
      exact scan_dot _

/-! ## Wildcards in quotes -/

theorem upTo_wildcard (front behind : Text) :
    upTo (.scalar '[') (front ++ (wildcardText ++ behind)) = upTo (.scalar '[') (front ++ wildcardText) := by
  rw [← List.append_assoc]
  exact upTo_append (by simp [wildcardText]) behind

theorem looksLikeIndex_wildcard (front behind : Text) :
    looksLikeIndex (front ++ (wildcardText ++ behind)) = false := by
  have stays : .scalar '[' ∈ (front ++ (wildcardText ++ behind)).dropWhile (· == .scalar '-') := by
    rw [List.dropWhile_append]
    split
    · exact List.mem_cons_self
    · simp [wildcardText]
  simp only [looksLikeIndex, Bool.and_eq_false_iff, List.all_eq_false]
  exact .inr ⟨_, stays, by decide⟩

theorem bracketStep_wildcard (opened behind : Text) : bracketStep (opened ++ (wildcardText ++ behind)) =
    .ok (.member (spelledName (Text.trim (opened ++ (wildcardText ++ behind))))) := by
  have noStar : Text.trim (opened ++ (wildcardText ++ behind)) ≠ [.scalar '*'] := fun star => by
    have long := congrArg List.length (trim_eq opened behind ▸ star)
    simp only [wildcardText, List.length_append, List.length_cons, List.length_nil] at long
    omega
  have noIndex : looksLikeIndex (Text.trim (opened ++ (wildcardText ++ behind))) = false := by
    rw [trim_eq]
    exact looksLikeIndex_wildcard _ _
  simp only [bracketStep, noStar, noIndex, spelledName, if_false, Bool.false_eq_true]
  cases unquoted? (Text.trim (opened ++ (wildcardText ++ behind))) <;> rfl

theorem spelledName_wildcard (front : Text) : spelledName (front ++ wildcardText) = front ++ wildcardText := by
  cases quotes : unquoted? (front ++ wildcardText) with
  | none => simp only [spelledName, quotes]
  | some name =>
    obtain ⟨mark, shape⟩ := unquoted?_eq_some quotes
    have ends := getLast?_append_wildcard front
    rw [shape, ← List.cons_append, List.getLast?_concat, Option.some.injEq] at ends
    cases mark <;> cases ends

theorem spelledName_ne (front : Text) {more : Text} (some : more ≠ []) :
    spelledName (front ++ (wildcardText ++ more)) ≠ front ++ wildcardText := by
  intro same
  cases quotes : unquoted? (front ++ (wildcardText ++ more)) with
  | none =>
    simp only [spelledName, quotes] at same
    simp [some] at same
  | some name =>
    simp only [spelledName, quotes] at same
    obtain ⟨mark, shape⟩ := unquoted?_eq_some quotes
    obtain ⟨others, last, rfl⟩ : ∃ others last, more = others ++ [last] :=
      ⟨more.dropLast, more.getLast some, (List.dropLast_append_getLast some).symm⟩
    cases front with
    | nil => cases mark <;> cases shape
    | cons point front =>
      obtain ⟨rfl, inner⟩ := List.cons.inj shape
      have split : (front ++ (wildcardText ++ others)) ++ [last] = name ++ [mark.point] := by
        rw [List.append_assoc, List.append_assoc]
        exact inner
      obtain ⟨rfl, _⟩ := List.append_inj' split rfl
      -- Unescaping moves a bracket only to the front, but the whole text has its quote in front of the bracket.
      have shorter := (length_unescapeBackslashes (.scalar '[') (by decide) _).trans
        (length_unescapeQuotes (.scalar '[') (by decide) (by decide) (front ++ (wildcardText ++ others)))
      have noBracket : mark.point ≠ .scalar '[' := by cases mark <;> decide
      rw [same, upTo_wildcard, List.cons_append, upTo_cons noBracket, List.length_cons] at shorter
      omega

theorem exists_names (opened : Text) {behind : Text} (filled : behind.rdropWhile isBlankPoint ≠ []) :
    ∃ name other, bracketStep (opened ++ wildcardText) = .ok (.member name) ∧
      bracketStep (opened ++ (wildcardText ++ behind)) = .ok (.member other) ∧ name ≠ other := by
  have own := bracketStep_wildcard opened []
  rw [List.append_nil, trim_root, spelledName_wildcard] at own
  have longer := bracketStep_wildcard opened behind
  rw [trim_eq] at longer
  exact ⟨_, _, own, longer, (spelledName_ne _ filled).symm⟩

theorem after_blanks {t : Text} (blanks : ∀ point ∈ t, isBlankPoint point) (mark : Mark) :
    (Spot.quoted mark).after t = .quoted mark := by
  induction t with
  | nil => rfl
  | cons point t ih =>
    have own := blanks point List.mem_cons_self
    have noBackslash : point ≠ .scalar '\\' := by rintro rfl; revert own; decide
    have noMark : point ≠ mark.point := by rintro rfl; revert own; cases mark <;> decide
    simpa [Spot.advance, noBackslash, noMark] using ih fun other member => blanks other (List.mem_cons_of_mem _ member)

theorem enclosed_filled {mark : Mark} {t : Text} (some : t ≠ []) (ends : t.rdropWhile isBlankPoint = t) :
    (enclosed (.quoted mark) t).1.rdropWhile isBlankPoint ≠ [] := by
  rcases exists_enclosed (.quoted mark) nofun t with stays | ⟨body, rest, rfl, stays, closed⟩
  · rw [enclosed_of_stays stays, ends]
    exact some
  · rw [enclosed_closed stays closed]
    intro blank
    rw [after_blanks (List.rdropWhile_eq_nil_iff.mp blank)] at closed
    cases closed

/-! ## Wildcards as they are read -/

theorem after_dropWhile_blank (t : Text) : Spot.outside.after (t.dropWhile isBlankPoint) = Spot.outside.after t := by
  induction t with
  | nil => rfl
  | cons point t ih =>
    cases blank : isBlankPoint point with
    | true =>
      have noBracket : point ≠ .scalar '[' := by rintro rfl; cases blank
      simpa [blank, Spot.advance, noBracket] using ih
    | false => rw [List.dropWhile_cons_of_neg (by simp [blank])]

theorem after_unrooted (t : Text) : Spot.outside.after (unrooted t) = Spot.outside.after t := by
  unfold unrooted
  split <;> rfl

theorem after_wildcard {spot : Spot} (closed : spot.after wildcardText = .outside) :
    spot.after [.scalar '[', .scalar '*'] = .inside := by
  cases spot with
  | outside => rfl
  | inside => rfl
  | quoted mark => cases mark <;> cases closed
  | escaped mark => cases mark <;> cases closed

theorem after_wildcard_open (spot : Spot) (opened : spot.after wildcardText ≠ .outside) :
    ∃ mark, spot.after wildcardText = .quoted mark ∧ spot.Stays wildcardText := by
  cases spot with
  | outside => exact absurd rfl opened
  | inside => exact absurd rfl opened
  | quoted mark => exact ⟨mark, by cases mark <;> simp [wildcardText, Spot.advance, Mark.point, Spot.Stays]⟩
  | escaped mark => exact ⟨mark, by cases mark <;> simp [wildcardText, Spot.advance, Mark.point, Spot.Stays]⟩

theorem scan_wildcard {front : Text} (closed : Spot.outside.after (front ++ wildcardText) = .outside) (behind : Text) :
    scan (front ++ (wildcardText ++ behind)) = inTurn (scan (front ++ wildcardText)) (scan behind) := by
  rw [Spot.after_append] at closed
  have opened : Spot.outside.after (front ++ [.scalar '[', .scalar '*']) = .inside := by
    rw [Spot.after_append]
    exact after_wildcard closed
  have turns := scan_closing opened behind
  simpa [wildcardText] using turns

theorem scan_quoted_wildcard {front behind : Text} (opened : Spot.outside.after (front ++ wildcardText) ≠ .outside)
    (some : behind ≠ []) (ends : behind.rdropWhile isBlankPoint = behind) {whole : List Step}
    (found : scan (front ++ (wildcardText ++ behind)) = .ok whole) :
    ∃ before name other others, scan (front ++ wildcardText) = .ok (before ++ [.member name]) ∧
      whole = before ++ .member other :: others ∧ name ≠ other := by
  rw [Spot.after_append] at opened
  obtain closed | ⟨first, body, rfl, closed, stays⟩ := exists_open front
  · rw [closed] at opened
    exact absurd rfl opened
  · rw [Spot.after_append, closed] at opened
    obtain ⟨mark, quoted, within⟩ := after_wildcard_open (Spot.inside.after body) opened
    have held : Spot.inside.Stays (body ++ wildcardText) := Spot.stays_append.mpr ⟨stays, within⟩
    -- The bracket is still open behind the wildcard and takes in what follows, up to the closing quote.
    have longer : enclosed .inside (body ++ (wildcardText ++ behind)) =
        (body ++ (wildcardText ++ (enclosed (.quoted mark) behind).1), (enclosed (.quoted mark) behind).2) := by
      rw [← List.append_assoc, enclosed_append held, Spot.after_append, quoted, List.append_assoc]
    obtain ⟨name, other, own, foreign, different⟩ := exists_names body (enclosed_filled some ends)
    rw [List.append_assoc, scan_append closed (by simp [isBreak]), List.cons_append, scan_bracket, longer, foreign,
      map_ok] at found
    obtain ⟨before, rest, front, later, rfl⟩ := inTurn_eq_ok.mp found
    obtain ⟨_, others, same, _, rfl⟩ := inTurn_eq_ok.mp later
    cases same
    refine ⟨before, name, other, others, ?_, rfl, different⟩
    rw [List.append_assoc, scan_append closed (by simp [isBreak]), List.cons_append, scan_bracket,
      enclosed_of_stays held, own, front, scan_nil]
    rfl

theorem not_agrees {path front relative : Text} {before others : List Step} {name other : Text}
    (own : steps path = .ok (before ++ .member other :: others))
    (root : steps (front ++ wildcardText) = .ok (before ++ [.member name])) (different : name ≠ other) :
    ¬ SplitAgrees path (front ++ wildcardText) relative := by
  intro agrees
  -- The path finds its value there, and the root has no entries.
  let document := sample (before ++ .member other :: others) (.bool true)
  have found : select path document = .ok [.bool true] := by
    rw [select_eq, own]
    exact congrArg _ (reached_sample _ _)
  have none : Row.matched document (front ++ wildcardText) = .ok [] := by
    have empty : reached (before ++ [.member name]) document = [] := by
      have inner : document = sample before (sample (.member other :: others) (.bool true)) := List.foldr_append
      rw [inner, reached_append, reached_sample, List.flatMap_singleton, reached_cons]
      simp [sample, Step.holding, Step.from, KeyedList.get?, different.symm]
    rw [matched_root, root, map_ok, empty]
    rfl
  exact absurd (agrees document _ _ _ found none rfl) (by simp)

/-! ## Rooted paths -/

theorem rooted_iff (front behind : Text) :
    Rooted (front ++ (wildcardText ++ behind)) ↔ Rooted (front ++ wildcardText) := by
  have same : (Text.trim (front ++ (wildcardText ++ behind))).head? = (Text.trim (front ++ wildcardText)).head? := by
    rw [trim_eq, trim_root]
    cases front.dropWhile isBlankPoint <;> rfl
  rw [Rooted, Rooted, same]

theorem steps_rooted {front : Text} (rooted : Rooted (front ++ wildcardText)) (behind : Text) :
    steps (front ++ (wildcardText ++ behind)) =
      scan (unrooted (front.dropWhile isBlankPoint) ++ (wildcardText ++ behind.rdropWhile isBlankPoint)) := by
  rw [steps_of_rooted ((rooted_iff front behind).mpr rooted), trim_eq, unrooted_append]

theorem steps_root {front : Text} (rooted : Rooted (front ++ wildcardText)) :
    steps (front ++ wildcardText) = scan (unrooted (front.dropWhile isBlankPoint) ++ wildcardText) := by
  simpa using steps_rooted rooted []

theorem after_root (front : Text) : Spot.outside.after (unrooted (front.dropWhile isBlankPoint) ++ wildcardText) =
    Spot.outside.after (front ++ wildcardText) := by
  rw [Spot.after_append, after_unrooted, after_dropWhile_blank, Spot.after_append]

theorem trim_eq_trim_root {front behind : Text} :
    Text.trim (front ++ (wildcardText ++ behind)) = Text.trim (front ++ wildcardText) ↔
      behind.rdropWhile isBlankPoint = [] := by
  rw [trim_eq, trim_root]
  simp

/-- As long as a path is read as it is written, the split agrees just outside of quotes. -/
theorem rooted_agrees_iff {front behind relative : Text} (rooted : Rooted (front ++ wildcardText))
    (shape : behind = relative ∨ behind = .scalar '.' :: relative) {whole : List Step}
    (own : steps (front ++ (wildcardText ++ behind)) = .ok whole) :
    SplitAgrees (front ++ (wildcardText ++ behind)) (front ++ wildcardText) relative ↔
      Spot.outside.after (front ++ wildcardText) = .outside ∨
        Text.trim (front ++ (wildcardText ++ behind)) = Text.trim (front ++ wildcardText) := by
  rw [trim_eq_trim_root]
  constructor
  · intro agrees
    by_contra apart
    obtain ⟨opened, some⟩ := not_or.mp apart
    rw [← after_root] at opened
    have found := own
    rw [steps_rooted rooted] at found
    obtain ⟨before, name, other, others, root, rfl, different⟩ :=
      scan_quoted_wildcard opened some (List.rdropWhile_idempotent _ _) found
    rw [← steps_root rooted] at root
    exact not_agrees own root different agrees
  · intro holds
    apply agrees_of_inTurn
    rw [steps_rooted rooted, steps_root rooted, relativeSteps_eq shape]
    rcases holds with closed | none
    · exact scan_wildcard ((after_root front).trans closed) _
    · rw [none, List.append_nil, scan_nil, inTurn_nil]

/-! ## Written paths -/

theorem steps_written {path : Text} (written : ¬ Rooted path)
    (closed : ∀ segment ∈ segments (Text.trim path), Closed segment) :
    steps path = allSteps (segments (Text.trim path)) := by
  obtain ⟨noDollar, noBracket⟩ := not_or.mp written
  rw [steps, normalize_eq noDollar noBracket, scan_encoded closed]

theorem steps_of_segments {path segment : Text} {before others : List Text} (written : ¬ Rooted path)
    (parts : segments (Text.trim path) = before ++ segment :: others)
    (closed : ∀ own ∈ before ++ segment :: others, Closed own) :
    steps path = inTurn (allSteps before) (inTurn (segmentSteps segment) (allSteps others)) := by
  rw [steps_written written (parts ▸ closed), parts, allSteps_append, allSteps]

theorem segmentSteps_wildcard {front more : Text} (root : Closed (front ++ wildcardText))
    (closed : Closed (front ++ wildcardText ++ more))
    (indexed : more = [] ∨ isIndexed (front ++ wildcardText ++ more) = true)
    {rest : Text} (breaks : ∀ point ∈ rest.head?, isBreak point) :
    inTurn (segmentSteps (front ++ wildcardText ++ more)) (scan rest) =
      inTurn (segmentSteps (front ++ wildcardText)) (scan (more ++ rest)) := by
  rcases indexed with rfl | indexed
  · rw [List.append_nil, List.nil_append]
  · have own := isIndexed_of_append (getLast?_append_wildcard front) indexed
    have ended := closed indexed
    rw [Spot.after_append, root own] at ended
    rw [segmentSteps, segmentSteps, if_pos indexed, if_pos own, List.append_assoc, scan_wildcard (root own),
      scan_append ended breaks, inTurn_assoc]

theorem segmentSteps_head_ne {front more : Text} (some : more ≠ []) {found : List Step}
    (read : segmentSteps (front ++ wildcardText) = .ok found) (others : List Step) :
    (found ++ others).head? ≠ Option.some (.member (front ++ wildcardText ++ more)) := by
  unfold segmentSteps at read
  split at read
  · rename_i indexed
    cases shape : front ++ wildcardText with
    | nil => simp [wildcardText] at shape
    | cons point rest =>
      rw [shape] at indexed read
      have start : isStart point = true := by
        by_contra other
        simp [isIndexed, afterIdentifier, other] at indexed
      obtain ⟨name, first, unbroken⟩ := head_scan (isBreak_of_holds rfl rfl start) read
      rw [List.head?_append, first, Option.some_or, ← shape]
      rintro same
      have bracket := unbroken (.scalar '[') (by cases same; simp [wildcardText])
      cases bracket
  · cases read
    simp [some]

theorem written_parts (front : Text) {behind relative : Text}
    (shape : behind = relative ∨ behind = .scalar '.' :: relative) :
    ∃ before first more rest, segments (Text.trim (front ++ wildcardText)) = before ++ [first ++ wildcardText] ∧
      segments (Text.trim (front ++ (wildcardText ++ behind))) =
        before ++ (first ++ wildcardText ++ more) :: segments rest ∧
      relativeSteps relative = scan (more ++ rest) ∧ ∀ point ∈ rest.head?, point = .scalar '.' := by
  obtain ⟨before, first, parts⟩ := segments_wildcard (front.dropWhile isBlankPoint)
  let cursor := Cursor.after {} (front.dropWhile isBlankPoint ++ wildcardText)
  obtain ⟨rest, split, dot, others⟩ := cut_split cursor (behind.rdropWhile isBlankPoint)
  have root := parts []
  simp only [List.append_nil, cut] at root
  refine ⟨before, first, (cut cursor (behind.rdropWhile isBlankPoint)).1, rest, ?_, ?_, ?_, dot⟩
  · rw [trim_root, root]
  · rw [trim_eq, parts, ← others, List.append_assoc]
  · rw [relativeSteps_eq shape, ← split]

/-- A path that a user writes is split rightly just if its segments are read as they are written. -/
theorem written_agrees {front behind relative : Text} (written : ¬ Rooted (front ++ wildcardText))
    (shape : behind = relative ∨ behind = .scalar '.' :: relative) :
    ∃ before first more others, segments (Text.trim (front ++ wildcardText)) = before ++ [first] ∧
      segments (Text.trim (front ++ (wildcardText ++ behind))) = before ++ (first ++ more) :: others ∧
      ((∀ segment ∈ before ++ first :: (first ++ more) :: others, Closed segment) →
        ((more = [] ∨ isIndexed (first ++ more) = true) ∧ (∀ segment ∈ others, Plain segment) →
          SplitAgrees (front ++ (wildcardText ++ behind)) (front ++ wildcardText) relative) ∧
        ∀ whole entry back, steps (front ++ (wildcardText ++ behind)) = .ok whole →
          steps (front ++ wildcardText) = .ok entry → relativeSteps relative = .ok back →
          SplitAgrees (front ++ (wildcardText ++ behind)) (front ++ wildcardText) relative →
          (more = [] ∨ isIndexed (first ++ more) = true) ∧ ∀ segment ∈ others, Plain segment) := by
  obtain ⟨before, first, more, rest, root, whole, reads, dot⟩ := written_parts front shape
  refine ⟨before, first ++ wildcardText, more, segments rest, root, whole, fun closed => ?_⟩
  have rootClosed : Closed (first ++ wildcardText) := closed _ (by simp)
  have wholeClosed : Closed (first ++ wildcardText ++ more) := closed _ (by simp)
  have restClosed : ∀ segment ∈ segments rest, Closed segment := fun segment member => closed segment (by simp [member])
  have rootSteps : steps (front ++ wildcardText) = inTurn (allSteps before) (segmentSteps (first ++ wildcardText)) := by
    rw [steps_of_segments written root fun segment member => closed segment (by simp at member ⊢; tauto), allSteps,
      inTurn_nil]
  have wholeSteps := steps_of_segments ((rooted_iff front behind).not.mpr written) whole
    fun segment member => closed segment (by simp at member ⊢; tauto)
  constructor
  · rintro ⟨indexed, plain⟩
    have closing := segmentSteps_wildcard rootClosed wholeClosed indexed (isBreak_of_dot dot)
    apply agrees_of_inTurn
    rw [wholeSteps, rootSteps, reads, ← scan_segments rest plain restClosed, closing, inTurn_assoc]
  · intro whole entry back wholeRead rootRead relativeRead agrees
    -- Agreement is an equation of steps, in which the steps before the wildcard cancel.
    have same := (agrees_iff wholeRead rootRead relativeRead).mp agrees
    obtain ⟨front, own, beforeRead, ownRead, rfl⟩ := inTurn_eq_ok.mp (rootSteps.symm.trans rootRead)
    obtain ⟨_, later, frontRead, laterRead, rfl⟩ := inTurn_eq_ok.mp (wholeSteps.symm.trans wholeRead)
    obtain ⟨longer, others, longerRead, othersRead, rfl⟩ := inTurn_eq_ok.mp laterRead
    cases beforeRead.symm.trans frontRead
    rw [List.append_assoc, List.append_cancel_left_eq] at same
    have indexed : more = [] ∨ isIndexed (first ++ wildcardText ++ more) = true := by
      by_contra apart
      obtain ⟨some, named⟩ := not_or.mp apart
      rw [segmentSteps, if_neg named] at longerRead
      cases longerRead
      exact segmentSteps_head_ne some ownRead back (congrArg List.head? same.symm)
    have closing := segmentSteps_wildcard rootClosed wholeClosed indexed (isBreak_of_dot dot)
    rw [ownRead, ← reads, relativeRead, longerRead, inTurn_ok, ← same] at closing
    obtain ⟨_, others', equal, restRead, sum⟩ := inTurn_eq_ok.mp closing
    cases equal
    cases List.append_cancel_left sum
    exact ⟨indexed, plain_of_scan restClosed restRead othersRead⟩

/-! ## Array roots -/

/--
Splitting a path at its array root keeps what it reaches just if the steps of the root and those of the
relative part are together the steps of the path. That is so for a rooted path if the first wildcard does
not stand in quotes or nothing comes behind it, and for any other path if the segment of the wildcard is
indexed as a whole or ends there, and all segments behind it are indexed or have neither brackets nor dots.
-/
theorem splitArrayRoot_agrees_iff {path root relative : Text} (split : splitArrayRoot path = some (root, relative)) :
    (∀ whole first others, steps path = .ok whole → steps root = .ok first → relativeSteps relative = .ok others →
      (SplitAgrees path root relative ↔ whole = first ++ others)) ∧
    (Rooted path → ∀ whole, steps path = .ok whole →
      (SplitAgrees path root relative ↔ Spot.outside.after root = .outside ∨ Text.trim path = Text.trim root)) ∧
    (¬ Rooted path → ∃ before first more others, segments (Text.trim root) = before ++ [first] ∧
      segments (Text.trim path) = before ++ (first ++ more) :: others ∧
      ((∀ segment ∈ before ++ first :: (first ++ more) :: others, Closed segment) →
        ((more = [] ∨ isIndexed (first ++ more) = true) ∧ (∀ segment ∈ others, Plain segment) →
          SplitAgrees path root relative) ∧
        ∀ whole entry back, steps path = .ok whole → steps root = .ok entry → relativeSteps relative = .ok back →
          SplitAgrees path root relative →
          (more = [] ∨ isIndexed (first ++ more) = true) ∧ ∀ segment ∈ others, Plain segment)) := by
  obtain ⟨front, behind, rfl, rfl, shape⟩ := splitArrayRoot_ok split
  refine ⟨fun _ _ _ whole first others => agrees_iff whole first others, fun rooted whole own => ?_, fun written => ?_⟩
  · exact rooted_agrees_iff ((rooted_iff front behind).mp rooted) shape own
  · exact written_agrees ((rooted_iff front behind).not.mp written) shape

theorem splitArrayRoot_agrees_skills :
    splitArrayRoot (Text.ofString "$.skills[*].name") = some (Text.ofString "$.skills[*]", Text.ofString "name") ∧
      SplitAgrees (Text.ofString "$.skills[*].name") (Text.ofString "$.skills[*]") (Text.ofString "name") := by
  have split : splitArrayRoot (Text.ofString "$.skills[*].name") =
      some (Text.ofString "$.skills[*]", Text.ofString "name") := by decide
  have rooted : Rooted (Text.ofString "$.skills[*].name") := .inl (by decide)
  have own : steps (Text.ofString "$.skills[*].name") =
      .ok [.member (Text.ofString "skills"), .wildcard, .member (Text.ofString "name")] := by decide +kernel
  exact ⟨split, ((splitArrayRoot_agrees_iff split).2.1 rooted _ own).mpr (.inl (by decide))⟩

/-- A wildcard in quotes is a part of a name, but the path is cut behind it. -/
theorem splitArrayRoot_cuts_name :
    splitArrayRoot (Text.ofString "$['a[*]b']") = some (Text.ofString "$['a[*]", Text.ofString "b']") ∧
      select (Text.ofString "$['a[*]b']") (.record [(Text.ofString "a[*]b", .int 1)]) = .ok [.int 1] ∧
      Row.matched (.record [(Text.ofString "a[*]b", .int 1)]) (Text.ofString "$['a[*]") = .ok [] ∧
      ¬ SplitAgrees (Text.ofString "$['a[*]b']") (Text.ofString "$['a[*]") (Text.ofString "b']") := by
  have named : steps (Text.ofString "$['a[*]b']") = .ok [.member (Text.ofString "a[*]b")] := by decide +kernel
  have opened : steps (Text.ofString "$['a" ++ wildcardText) = .ok [.member (Text.ofString "'a[*]")] := by decide +kernel
  have whole : select (Text.ofString "$['a[*]b']") (.record [(Text.ofString "a[*]b", .int 1)]) = .ok [.int 1] := by
    rw [select_eq, named]
    rfl
  have none : Row.matched (.record [(Text.ofString "a[*]b", .int 1)]) (Text.ofString "$['a[*]") = .ok [] := by
    change Row.matched _ (Text.ofString "$['a" ++ wildcardText) = _
    rw [matched_root, opened]
    rfl
  refine ⟨by decide, whole, none, fun agrees => ?_⟩
  cases agrees _ _ _ _ whole none rfl

end ProfileConnector.Path
