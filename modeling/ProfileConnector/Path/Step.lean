import ProfileConnector.Number.Numeral
import ProfileConnector.Path.Normal
import ProfileConnector.Text.Digit
import ProfileConnector.Value.Basic

/-!
Steps of a path and the values that they reach. A step names a member, gives an index (from the end
if negative) or takes every element.
-/

namespace ProfileConnector

namespace Path

inductive Step where
  | member (name : Text)
  | index (i : Int)
  | wildcard
  deriving DecidableEq, Repr

/-- A bracket holds digits or dashes that spell no integer. -/
inductive Fault where
  | notAnIndex (body : Text)
  deriving DecidableEq, Repr

/-- Undoes the escapes of a quote, then those of a backslash. -/
def unescapeQuotes : Text → Text
  | .scalar '\\' :: .scalar '\'' :: rest => .scalar '\'' :: unescapeQuotes rest
  | point :: rest => point :: unescapeQuotes rest
  | [] => []

def unescapeBackslashes : Text → Text
  | .scalar '\\' :: .scalar '\\' :: rest => .scalar '\\' :: unescapeBackslashes rest
  | point :: rest => point :: unescapeBackslashes rest
  | [] => []

def unquoted? (body : Text) : Option Text :=
  match body with
  | .scalar '\'' :: rest =>
    if rest.getLast? = some (.scalar '\'') then some rest.dropLast else none
  | .scalar '"' :: rest =>
    if rest.getLast? = some (.scalar '"') then some rest.dropLast else none
  | _ => none

/-- Digits of any form after any number of dashes. -/
def looksLikeIndex (body : Text) : Bool :=
  let digits := body.dropWhile (· == .scalar '-')
  !digits.isEmpty && digits.all (CodePoint.satisfies Text.isDigitForm)

def bracketStep (inside : Text) : Except Fault Step :=
  let body := Text.trim inside
  if body = [.scalar '*'] then .ok .wildcard
  else match unquoted? body with
    | some name => .ok (.member (unescapeBackslashes (unescapeQuotes name)))
    | none =>
      if looksLikeIndex body then
        match body.scalars?.bind Numeral.integer? with
        | some i => .ok (.index i)
        | none => .error (.notAnIndex body)
      else .ok (.member body)

/-- The inside of a bracket and the text after it; a closing bracket in quotes does not count. -/
def bracket (quote : Option CodePoint) : Text → Text × Text
  | [] => ([], [])
  | [point] => if quote.isNone && point == .scalar ']' then ([], []) else ([point], [])
  | point :: next :: rest =>
    match quote with
    | some mark =>
      if point == .scalar '\\' then
        let (inside, after) := bracket (some mark) rest
        (point :: next :: inside, after)
      else
        let (inside, after) := bracket (if point == mark then none else some mark) (next :: rest)
        (point :: inside, after)
    | none =>
      if point == .scalar ']' then ([], next :: rest)
      else
        let mark := if point == .scalar '\'' || point == .scalar '"' then some point else none
        let (inside, after) := bracket mark (next :: rest)
        (point :: inside, after)

def isBreak (point : CodePoint) : Bool := point == .scalar '.' || point == .scalar '['

theorem length_bracket_le (quote : Option CodePoint) (t : Text) :
    (bracket quote t).2.length ≤ t.length := by
  fun_induction bracket quote t <;> simp_all <;> omega

def scan : Text → Except Fault (List Step)
  | [] => .ok []
  | point :: rest =>
    if point = .scalar '[' then do
      let step ← bracketStep (bracket none rest).1
      pure (step :: (← scan (bracket none rest).2))
    else
      let name := if point = .scalar '.' then [] else [point]
      let name := name ++ rest.takeWhile (!isBreak ·)
      do
        let steps ← scan (rest.dropWhile (!isBreak ·))
        pure (if name.isEmpty then steps else .member name :: steps)
  termination_by t => t.length
  decreasing_by
    · have := length_bracket_le none rest
      simp only [List.length_cons]
      omega
    · have := (List.dropWhile_sublist (!isBreak ·) (l := rest)).length_le
      simp only [List.length_cons]
      omega

def steps (path : Text) : Except Fault (List Step) := scan ((normalize path).drop 1)

def Step.from (step : Step) (value : Value) : List Value :=
  match step, value with
  | .wildcard, .list items => items
  | .wildcard, .record members => members.map Prod.snd
  | .index i, .list items =>
    let place := if i < 0 then i + items.length else i
    if place < 0 then [] else (items[place.toNat]?).toList
  | .member name, .record members => (KeyedList.get? name members).toList
  | _, _ => []

def reached (steps : List Step) (value : Value) : List Value :=
  steps.foldl (fun values step => values.flatMap step.from) [value]

def select (path : Text) (document : Value) : Except Fault (List Value) := do
  pure (reached (← steps path) document)

def cutAtWildcard : Text → Option (Text × Text)
  | [] => none
  | .scalar '[' :: .scalar '*' :: .scalar ']' :: rest =>
    some ([.scalar '[', .scalar '*', .scalar ']'], rest)
  | point :: rest => (cutAtWildcard rest).map fun (root, relative) => (point :: root, relative)

/-- The root of the array that a path runs through, and the path from an element on. -/
def splitArrayRoot (path : Text) : Option (Text × Text) :=
  (cutAtWildcard path).map fun (root, relative) =>
    (root, match relative with
      | .scalar '.' :: rest => rest
      | rest => rest)

end Path

end ProfileConnector
