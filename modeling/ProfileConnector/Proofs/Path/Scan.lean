import Mathlib.Data.List.Induction
import ProfileConnector.Path.Step
import ProfileConnector.Proofs.Outcome

/-!
Reading the steps of a path. A reader of a path in normal form stands outside of brackets, in a bracket
or in quotes within it; brackets and quotes that are open at the end of a text decide how it is read
together with what follows.
-/

namespace ProfileConnector.Path

open Outcome

inductive Mark where
  | single | double
  deriving DecidableEq

def Mark.point : Mark → CodePoint
  | .single => .scalar '\''
  | .double => .scalar '"'

/-- Where a reader stands. -/
inductive Spot where
  | outside
  | inside
  | quoted (mark : Mark)
  /-- Behind a backslash in quotes. -/
  | escaped (mark : Mark)
  deriving DecidableEq

namespace Spot

def advance : Spot → CodePoint → Spot
  | .outside, point => if point = .scalar '[' then .inside else .outside
  | .inside, point =>
    if point = .scalar ']' then .outside
    else if point = Mark.single.point then .quoted .single
    else if point = Mark.double.point then .quoted .double
    else .inside
  | .quoted mark, point =>
    if point = .scalar '\\' then .escaped mark else if point = mark.point then .inside else .quoted mark
  | .escaped mark, _ => .quoted mark

def after (spot : Spot) (t : Text) : Spot := t.foldl advance spot

@[simp] theorem after_nil (spot : Spot) : spot.after [] = spot := rfl

@[simp] theorem after_cons (spot : Spot) (point : CodePoint) (t : Text) :
    spot.after (point :: t) = (spot.advance point).after t := rfl

theorem after_append (spot : Spot) (front back : Text) : spot.after (front ++ back) = (spot.after front).after back :=
  List.foldl_append

theorem advance_eq_outside {spot : Spot} {point : CodePoint} (leaves : spot.advance point = .outside) :
    (spot = .outside ∧ point ≠ .scalar '[') ∨ (spot = .inside ∧ point = .scalar ']') := by
  cases spot <;> simp only [advance] at leaves <;> grind

theorem advance_eq_escaped {spot : Spot} {point : CodePoint} {mark : Mark}
    (escapes : spot.advance point = .escaped mark) : spot = .quoted mark ∧ point = .scalar '\\' := by
  cases spot <;> simp only [advance] at escapes <;> grind

/-- From the spot on the bracket is not closed within the text. -/
def Stays : Spot → Text → Prop
  | spot, [] => spot ≠ .outside
  | spot, point :: rest => spot ≠ .outside ∧ Stays (spot.advance point) rest

theorem stays_append {spot : Spot} {front back : Text} :
    spot.Stays (front ++ back) ↔ spot.Stays front ∧ (spot.after front).Stays back := by
  induction front generalizing spot with
  | nil => cases back <;> simp [Stays]
  | cons point front ih => simp only [List.cons_append, Stays, after_cons, ih, and_assoc]

theorem Stays.after_ne {spot : Spot} {t : Text} (stays : spot.Stays t) : spot.after t ≠ .outside := by
  induction t generalizing spot with
  | nil => exact stays
  | cons point t ih => exact ih stays.2

end Spot

/-! ## Brackets -/

/-- What is in a bracket from a spot in it on, and the text behind the bracket. -/
def enclosed (spot : Spot) : Text → Text × Text
  | [] => ([], [])
  | point :: rest =>
    if spot.advance point = .outside then ([], rest)
    else (point :: (enclosed (spot.advance point) rest).1, (enclosed (spot.advance point) rest).2)

theorem enclosed_cons {spot next : Spot} {point : CodePoint} (advanced : spot.advance point = next)
    (stays : next ≠ .outside) (rest : Text) :
    enclosed spot (point :: rest) = (point :: (enclosed next rest).1, (enclosed next rest).2) := by
  rw [enclosed, advanced, if_neg stays]

theorem enclosed_prefix (spot : Spot) (t : Text) : (enclosed spot t).1 <+: t := by
  induction t generalizing spot with
  | nil => exact List.prefix_refl _
  | cons point t ih =>
    rw [enclosed]
    split
    · exact List.nil_prefix
    · exact List.cons_prefix_cons.mpr ⟨rfl, ih _⟩

def Spot.quote? : Spot → Option (Option CodePoint)
  | .inside => some none
  | .quoted mark => some (some mark.point)
  | _ => none

theorem bracket_cons {spot : Spot} {quote quote' : Option CodePoint} {point : CodePoint}
    (stands : spot.quote? = some quote) (next : (spot.advance point).quote? = some quote') (second : CodePoint)
    (rest : Text) :
    bracket quote (point :: second :: rest) =
      (point :: (bracket quote' (second :: rest)).1, (bracket quote' (second :: rest)).2) := by
  cases spot <;> simp only [Spot.quote?, reduceCtorEq, Option.some.injEq] at stands
  all_goals
    subst stands
    simp only [Spot.advance] at next
    rw [bracket]
    grind [Spot.quote?, Mark.point]

theorem bracket_single {spot : Spot} {quote : Option CodePoint} (stands : spot.quote? = some quote) (point : CodePoint) :
    bracket quote [point] = enclosed spot [point] := by
  by_cases leaves : spot.advance point = .outside
  · obtain ⟨rfl, _⟩ | ⟨rfl, rfl⟩ := Spot.advance_eq_outside leaves
    · cases stands
    · cases stands
      rfl
  · have stays : (quote.isNone && point == .scalar ']') = false := by
      cases spot with
      | outside | escaped mark => cases stands
      | quoted mark =>
        cases stands
        rfl
      | inside =>
        cases stands
        rw [Option.isNone_none, Bool.true_and, beq_eq_false_iff_ne]
        rintro rfl
        exact leaves rfl
    rw [enclosed, if_neg leaves, enclosed, bracket, stays]
    rfl

theorem bracket_eq (spot : Spot) {quote : Option CodePoint} (stands : spot.quote? = some quote) (t : Text) :
    bracket quote t = enclosed spot t := by
  -- An escaped point is passed over together with the backslash, so the induction is on the length.
  induction size : t.length using Nat.strongRecOn generalizing spot quote t with
  | ind n ih =>
    subst size
    cases t with
    | nil => rfl
    | cons point rest =>
      cases rest with
      | nil => exact bracket_single stands point
      | cons second rest =>
        have later (spot : Spot) {quote : Option CodePoint} (stands : spot.quote? = some quote) :
            bracket quote (second :: rest) = enclosed spot (second :: rest) :=
          ih _ (by simp) spot stands (second :: rest) rfl
        cases next : spot.advance point with
        | outside =>
          obtain ⟨rfl, _⟩ | ⟨rfl, rfl⟩ := Spot.advance_eq_outside next
          · cases stands
          · cases stands
            simp [bracket, enclosed, next]
        | inside =>
          have stays : (spot.advance point).quote? = some none := by rw [next]; rfl
          rw [bracket_cons stands stays, later .inside rfl, enclosed_cons next (by simp)]
        | quoted mark =>
          have stays : (spot.advance point).quote? = some (some mark.point) := by rw [next]; rfl
          rw [bracket_cons stands stays, later (.quoted mark) rfl, enclosed_cons next (by simp)]
        | escaped mark =>
          obtain ⟨rfl, rfl⟩ := Spot.advance_eq_escaped next
          cases stands
          have behind : (Spot.escaped mark).advance second = .quoted mark := rfl
          have own : bracket (some mark.point) rest = enclosed (.quoted mark) rest :=
            ih _ (by simp only [List.length_cons]; omega) (.quoted mark) rfl rest rfl
          rw [bracket, own, enclosed_cons next (by simp), enclosed_cons behind (by simp)]
          rfl

theorem enclosed_append {spot : Spot} {front : Text} (stays : spot.Stays front) (back : Text) :
    enclosed spot (front ++ back) =
      (front ++ (enclosed (spot.after front) back).1, (enclosed (spot.after front) back).2) := by
  induction front generalizing spot with
  | nil => rfl
  | cons point front ih =>
    have next : spot.advance point ≠ .outside := by cases front <;> first | exact stays.2 | exact stays.2.1
    rw [List.cons_append, enclosed_cons rfl next, ih stays.2]
    rfl

theorem enclosed_of_stays {spot : Spot} {t : Text} (stays : spot.Stays t) : enclosed spot t = (t, []) := by
  have whole := enclosed_append stays []
  simpa [enclosed] using whole

theorem enclosed_closed {body : Text} {spot : Spot} (stays : spot.Stays body) (ends : spot.after body = .inside)
    (rest : Text) : enclosed spot (body ++ .scalar ']' :: rest) = (body, rest) := by
  rw [enclosed_append stays, ends]
  simp [enclosed, Spot.advance]

theorem exists_enclosed (spot : Spot) (within : spot ≠ .outside) (t : Text) :
    spot.Stays t ∨ ∃ body rest, t = body ++ .scalar ']' :: rest ∧ spot.Stays body ∧ spot.after body = .inside := by
  induction t generalizing spot with
  | nil => exact .inl within
  | cons point t ih =>
    by_cases leaves : spot.advance point = .outside
    · obtain ⟨rfl, _⟩ | ⟨rfl, rfl⟩ := Spot.advance_eq_outside leaves
      · exact absurd rfl within
      · exact .inr ⟨[], t, rfl, within, rfl⟩
    · rcases ih _ leaves with stays | ⟨body, rest, rfl, stays, ends⟩
      · exact .inl ⟨within, stays⟩
      · exact .inr ⟨point :: body, rest, rfl, ⟨within, stays⟩, ends⟩

theorem exists_open (t : Text) : Spot.outside.after t = .outside ∨
    ∃ front body, t = front ++ .scalar '[' :: body ∧ Spot.outside.after front = .outside ∧ Spot.inside.Stays body := by
  induction t using List.reverseRecOn with
  | nil => exact .inl rfl
  | append_singleton t point ih =>
    rw [Spot.after_append]
    rcases ih with closed | ⟨front, body, rfl, closed, stays⟩
    · by_cases opens : point = .scalar '['
      · exact .inr ⟨t, [], by rw [opens], closed, nofun⟩
      · exact .inl (by simp [closed, Spot.advance, opens])
    · by_cases leaves : (Spot.inside.after body).advance point = .outside
      · refine .inl ?_
        rw [Spot.after_append, closed]
        exact leaves
      · exact .inr ⟨front, body ++ [point], by simp, closed, Spot.stays_append.mpr ⟨stays, stays.after_ne, leaves⟩⟩

/-! ## Steps -/

def inTurn (first second : Except Fault (List Step)) : Except Fault (List Step) := do
  let steps ← first
  pure (steps ++ (← second))

theorem inTurn_ok (steps others : List Step) : inTurn (.ok steps) (.ok others) = .ok (steps ++ others) := rfl

theorem nil_inTurn (second : Except Fault (List Step)) : inTurn (.ok []) second = second := by
  cases second <;> rfl

theorem inTurn_nil (first : Except Fault (List Step)) : inTurn first (.ok []) = first := by
  cases first with
  | error fault => rfl
  | ok steps => rw [inTurn_ok, List.append_nil]

theorem inTurn_assoc (first second third : Except Fault (List Step)) :
    inTurn (inTurn first second) third = inTurn first (inTurn second third) := by
  cases first with
  | error fault => rfl
  | ok steps =>
    cases second with
    | error fault => rfl
    | ok others =>
      cases third with
      | error fault => rfl
      | ok more => rw [inTurn_ok, inTurn_ok, inTurn_ok, inTurn_ok, List.append_assoc]

theorem inTurn_eq_ok {first second : Except Fault (List Step)} {whole : List Step} :
    inTurn first second = .ok whole ↔
      ∃ steps others, first = .ok steps ∧ second = .ok others ∧ steps ++ others = whole := by
  cases first <;> cases second <;> simp [inTurn]

theorem scan_nil : scan [] = .ok [] := by rw [scan]

theorem scan_bracket (rest : Text) : scan (.scalar '[' :: rest) =
    inTurn ((bracketStep (enclosed .inside rest).1).map ([·])) (scan (enclosed .inside rest).2) := by
  rw [scan, if_pos rfl, bracket_eq .inside rfl]
  cases bracketStep (enclosed .inside rest).1 <;> rfl

theorem ne_bracket {point : CodePoint} (plain : isBreak point = false) : point ≠ .scalar '[' := by
  rintro rfl
  cases plain

theorem scan_name {point : CodePoint} (plain : isBreak point = false) (rest : Text) :
    scan (point :: rest) = inTurn (.ok [.member (point :: rest.takeWhile (!isBreak ·))])
      (scan (rest.dropWhile (!isBreak ·))) := by
  have noDot : point ≠ .scalar '.' := by rintro rfl; cases plain
  rw [scan, if_neg (ne_bracket plain)]
  simp only [noDot, if_false, List.cons_append, List.nil_append, List.isEmpty_cons, Bool.false_eq_true]
  cases scan (rest.dropWhile (!isBreak ·)) <;> rfl

theorem scan_dot (rest : Text) : scan (.scalar '.' :: rest) = scan rest := by
  rw [scan, if_neg (by decide)]
  cases rest with
  | nil => simp [scan_nil]
  | cons point rest =>
    cases breaks : isBreak point with
    | true =>
      simp only [if_true, List.nil_append, List.takeWhile_cons, List.dropWhile_cons, breaks, Bool.not_true,
        Bool.false_eq_true, if_false, List.isEmpty_nil]
      cases scan (point :: rest) <;> rfl
    | false =>
      rw [scan_name breaks]
      simp only [if_true, List.nil_append, List.takeWhile_cons, List.dropWhile_cons, breaks, Bool.not_false,
        List.isEmpty_cons, Bool.false_eq_true, if_false]
      cases scan (rest.dropWhile (!isBreak ·)) <;> rfl

theorem name_append {front back : Text} (breaks : ∀ point ∈ back.head?, isBreak point) :
    (front ++ back).takeWhile (!isBreak ·) = front.takeWhile (!isBreak ·) ∧
      (front ++ back).dropWhile (!isBreak ·) = front.dropWhile (!isBreak ·) ++ back := by
  induction front with
  | nil =>
    cases back with
    | nil => exact ⟨rfl, rfl⟩
    | cons point back => simp [breaks point rfl]
  | cons point front ih => cases breaks : isBreak point <;> simp [breaks, ih]

theorem name_ended {t : Text} (ended : ¬ ∀ point ∈ t, isBreak point = false) (more : Text) :
    (t ++ more).takeWhile (!isBreak ·) = t.takeWhile (!isBreak ·) ∧
      (t ++ more).dropWhile (!isBreak ·) = t.dropWhile (!isBreak ·) ++ more := by
  induction t with
  | nil => exact absurd (by simp) ended
  | cons point t ih =>
    cases breaks : isBreak point with
    | true => simp [breaks]
    | false =>
      have others : ¬ ∀ other ∈ t, isBreak other = false := fun plain =>
        ended (List.forall_mem_cons.mpr ⟨breaks, plain⟩)
      simp [breaks, ih others]

theorem after_name (t : Text) : Spot.outside.after (t.dropWhile (!isBreak ·)) = Spot.outside.after t := by
  induction t with
  | nil => rfl
  | cons point t ih =>
    cases breaks : isBreak point with
    | true => simp [breaks]
    | false => simpa [breaks, Spot.advance, ne_bracket breaks] using ih

/-- What is proved of a text as it is scanned, from what is scanned behind its first bracket, dot or name. -/
theorem scan_induction {motive : Text → Prop} (nil : motive [])
    (bracket : ∀ rest, motive (enclosed .inside rest).2 → motive (.scalar '[' :: rest))
    (dot : ∀ rest, motive rest → motive (.scalar '.' :: rest))
    (name : ∀ point rest, isBreak point = false → motive (rest.dropWhile (!isBreak ·)) → motive (point :: rest))
    (t : Text) : motive t := by
  match t with
  | [] => exact nil
  | point :: rest =>
    by_cases opens : point = .scalar '['
    · have shorter : (enclosed .inside rest).2.length ≤ rest.length := by
        rw [← bracket_eq .inside rfl]
        exact length_bracket_le none rest
      exact opens ▸ bracket rest (scan_induction nil bracket dot name _)
    · by_cases apart : point = .scalar '.'
      · exact apart ▸ dot rest (scan_induction nil bracket dot name rest)
      · have shorter := (List.dropWhile_sublist (!isBreak ·) (l := rest)).length_le
        exact name point rest (by simp [isBreak, opens, apart]) (scan_induction nil bracket dot name _)
  termination_by t.length
  decreasing_by all_goals simp only [List.length_cons]; omega

/-- A text that closes its brackets, as it is scanned. -/
inductive Shut : Text → Prop
  | nil : Shut []
  | bracket {body rest : Text} (stays : Spot.inside.Stays body) (ends : Spot.inside.after body = .inside)
      (behind : Shut rest) : Shut (.scalar '[' :: (body ++ .scalar ']' :: rest))
  | dot {rest : Text} (behind : Shut rest) : Shut (.scalar '.' :: rest)
  | name {point : CodePoint} {rest : Text} (plain : isBreak point = false)
      (behind : Shut (rest.dropWhile (!isBreak ·))) : Shut (point :: rest)

theorem shut_of_after {t : Text} (closed : Spot.outside.after t = .outside) : Shut t := by
  induction t using scan_induction with
  | nil => exact .nil
  | bracket rest ih =>
    have ended : Spot.inside.after rest = .outside := closed
    obtain stays | ⟨body, others, rfl, stays, ends⟩ := exists_enclosed .inside nofun rest
    · exact absurd ended stays.after_ne
    · rw [enclosed_closed stays ends] at ih
      rw [Spot.after_append, ends] at ended
      exact .bracket stays ends (ih ended)
  | dot rest ih => exact .dot (ih closed)
  | name point rest plain ih =>
    have ended : Spot.outside.after rest = .outside := by simpa [Spot.advance, ne_bracket plain] using closed
    exact .name plain (ih ((after_name rest).trans ended))

theorem scan_enclosed {body : Text} (stays : Spot.inside.Stays body) (ends : Spot.inside.after body = .inside)
    (rest : Text) : scan (.scalar '[' :: (body ++ .scalar ']' :: rest)) =
      inTurn ((bracketStep body).map ([·])) (scan rest) := by
  rw [scan_bracket, enclosed_closed stays ends]

/-- A text that closes its brackets is read on its own, whatever comes after it at a dot or a bracket. -/
theorem scan_append {front back : Text} (closed : Spot.outside.after front = .outside)
    (breaks : ∀ point ∈ back.head?, isBreak point) : scan (front ++ back) = inTurn (scan front) (scan back) := by
  have shut := shut_of_after closed
  clear closed
  induction shut with
  | nil => rw [scan_nil, List.nil_append, nil_inTurn]
  | bracket stays ends behind ih =>
    rw [List.cons_append, List.append_assoc, List.cons_append, scan_enclosed stays ends, scan_enclosed stays ends, ih,
      inTurn_assoc]
  | dot behind ih => rw [List.cons_append, scan_dot, scan_dot, ih]
  | name plain behind ih =>
    rw [List.cons_append, scan_name plain, scan_name plain, (name_append breaks).1, (name_append breaks).2, ih,
      inTurn_assoc]

theorem scan_closing {front : Text} (opened : Spot.outside.after front = .inside) (back : Text) :
    scan (front ++ .scalar ']' :: back) = inTurn (scan (front ++ [.scalar ']'])) (scan back) := by
  obtain closed | ⟨before, body, rfl, closed, stays⟩ := exists_open front
  · cases opened.symm.trans closed
  · rw [Spot.after_append, closed] at opened
    have ends : Spot.inside.after body = .inside := opened
    rw [List.append_assoc, List.append_assoc, scan_append closed (by simp [isBreak]),
      scan_append closed (by simp [isBreak]), List.cons_append, List.cons_append, scan_enclosed stays ends,
      scan_enclosed stays ends, scan_nil, inTurn_nil, inTurn_assoc]

end ProfileConnector.Path
