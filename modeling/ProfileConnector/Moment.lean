import ProfileConnector.Number.Numeral

/-!
Dates and times in the written forms of ISO 8601. A date is a year with month and day or with week
and weekday; a time has up to three numbers of two digits, with colons or without, and may end in a
fraction and an offset. Years run from 1 to 9999.
-/

namespace ProfileConnector.Moment

/-- The number that the first `count` characters spell, all of them digits, and the rest. -/
def leadingNumber? (count : Nat) (cs : List Char) : Option (Nat × List Char) :=
  let digits := cs.take count
  if digits.length = count && digits.all Text.isAsciiDigit then
    some (Numeral.ofDigits (digits.map fun c => c.toNat - '0'.toNat), cs.drop count)
  else none

/-! ## Calendar -/

def isLeapYear (year : Nat) : Bool := year % 4 == 0 && (year % 100 != 0 || year % 400 == 0)

def daysIn (year month : Nat) : Nat :=
  if month = 2 then (if isLeapYear year then 29 else 28)
  else if month ∈ [4, 6, 9, 11] then 30
  else 31

def isCalendarDate (year month day : Nat) : Bool :=
  1 ≤ year && 1 ≤ month && month ≤ 12 && 1 ≤ day && day ≤ daysIn year month

/-- The days between the first of January of year 1 and that of a year. -/
def daysBefore (year : Nat) : Nat :=
  let past := year - 1
  past * 365 + past / 4 - past / 100 + past / 400

def firstWeekday (year : Nat) : Nat := daysBefore year % 7

/-- A year has 53 weeks if 53 of its days are Thursdays. -/
def weeksIn (year : Nat) : Nat :=
  if firstWeekday year = 3 || (isLeapYear year && firstWeekday year == 2) then 53 else 52

/-- The days before the Monday of the week that holds the first Thursday of a year. -/
def daysBeforeWeeks (year : Nat) : Nat :=
  if firstWeekday year ≤ 3 then daysBefore year - firstWeekday year
  else daysBefore year + 7 - firstWeekday year

/-- A day of a week that is not later than the last day of year 9999. -/
def isWeekDate (year week day : Nat) : Bool :=
  1 ≤ year && 1 ≤ week && week ≤ weeksIn year && 1 ≤ day && day ≤ 7 &&
    daysBeforeWeeks year + (week - 1) * 7 + day ≤ daysBefore 10000

/-! ## Written dates -/

/-- The rest of a list that starts with a dash, if one is asked for. -/
def dashed? (separated : Bool) : List Char → Option (List Char)
  | '-' :: rest => if separated then some rest else none
  | cs => if separated then none else some cs

/-- A week, and a weekday unless nothing follows. -/
def startsWithWeek (year : Nat) (separated : Bool) (cs : List Char) : Bool :=
  match leadingNumber? 2 cs with
  | none => false
  | some (week, []) => isWeekDate year week 1
  | some (week, rest) =>
    match (dashed? separated rest).bind (leadingNumber? 1) with
    | some (day, _) => isWeekDate year week day
    | none => false

def startsWithMonth (year : Nat) (separated : Bool) (cs : List Char) : Bool :=
  match leadingNumber? 2 cs with
  | none => false
  | some (month, rest) =>
    match (dashed? separated rest).bind (leadingNumber? 2) with
    | some (day, _) => isCalendarDate year month day
    | none => false

def startsWithDate (cs : List Char) : Bool :=
  match leadingNumber? 4 cs with
  | none => false
  | some (year, rest) =>
    let separated := rest.head? == some '-'
    match if separated then rest.drop 1 else rest with
    | 'W' :: rest => startsWithWeek year separated rest
    | rest => startsWithMonth year separated rest

def byteCount (cs : List Char) : Nat := cs.foldl (fun count c => count + c.utf8Size) 0

/-- A date as far as its digits go, in as many bytes as one of the written forms has. -/
def isDate (cs : List Char) : Bool := [7, 8, 10].contains (byteCount cs) && startsWithDate cs

/-! ## Written times -/

/--
Six digits count, further ones are skipped; the flag says that nothing stands behind them. A null
character counts as the end.
-/
def fraction? (cs : List Char) : Option Bool :=
  let counted := cs.take 6
  if counted.all Text.isAsciiDigit then
    let rest := (cs.drop 6).dropWhile Text.isAsciiDigit
    some (rest.isEmpty || rest.head? == some '\x00')
  else none

/--
The numbers of a clock, at most `left` of them, and whether nothing stands behind. The character
behind the first number decides on colons; a point or a comma starts the fraction.
-/
def clock? : Nat → Option Bool → List Char → Option (List Nat × Bool)
  | 0, _, cs => (fraction? cs).map fun complete => ([], complete)
  | left + 1, colons, cs =>
    match leadingNumber? 2 cs with
    | none => none
    | some (n, []) => some ([n], true)
    | some (n, [c]) => if c.toNat < 128 then some ([n], c == '\x00') else none
    | some (n, c :: rest) =>
      let separated := colons.getD (c == ':')
      let next :=
        if separated && c == ':' then clock? left (some separated) rest
        else if c == '.' || c == ',' then (fraction? rest).map fun complete => ([], complete)
        else if separated then none
        else clock? left (some separated) (c :: rest)
      next.map fun (others, complete) => (n :: others, complete)

def isWithinDay (numbers : List Nat) : Bool :=
  numbers.getD 0 0 < 24 && numbers.getD 1 0 < 60 && numbers.getD 2 0 < 60

def seconds (numbers : List Nat) : Nat :=
  numbers.getD 0 0 * 3600 + numbers.getD 1 0 * 60 + numbers.getD 2 0

/-- A time of day and an offset of less than a day; only before an offset other characters may stand. -/
def isTime (cs : List Char) : Bool :=
  match Numeral.cutAt (fun c => c == '+' || c == '-') cs with
  | (front, none) =>
    match clock? 3 none front with
    | some (numbers, complete) => complete && isWithinDay numbers
    | none => false
  | (front, some back) =>
    match clock? 3 none front, clock? 3 none back with
    | some (numbers, _), some (offset, complete) =>
      isWithinDay numbers && complete && seconds offset < 86400
    | _, _ => false

/-! ## Moments -/

/-- How many characters of a moment are its date. -/
def dateLength? (cs : List Char) : Option Nat :=
  let isAt (place : Nat) (c : Char) : Bool := cs[place]? == some c
  let digitAt (place : Nat) : Bool := (cs[place]?).any Text.isAsciiDigit
  if cs.length < 7 then none
  else if cs.length = 7 then some 7
  else if isAt 4 '-' then
    if isAt 5 'W' then
      if isAt 8 '-' then
        if cs.length = 9 then none else if digitAt 10 then some 8 else some 10
      else some 8
    else some 10
  else if isAt 4 'W' then
    let place := 7 + ((cs.drop 7).takeWhile Text.isAsciiDigit).length
    if place < 9 then some place else if place % 2 = 0 then some 7 else some 8
  else some 8

def withOffset (cs : List Char) : List Char :=
  cs.flatMap fun c => if c = 'Z' then "+00:00".toList else [c]

def isMoment (written : List Char) : Bool :=
  let cs := withOffset written
  match dateLength? cs with
  | none => false
  | some length =>
    startsWithDate (cs.take length) &&
      match cs.drop length with
      | [] => true
      | _ :: time => isTime time

example : isDate "2020-W53-7".toList ∧ isDate "2023-02-29".toList = false := by decide
example : isMoment "2024-01-02T03:04Z".toList ∧ isMoment "2024-01-02T24:00".toList = false := by decide

end ProfileConnector.Moment
