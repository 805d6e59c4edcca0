import ProfileConnector.Format
import ProfileConnector.Number.Shortest
import ProfileConnector.Row.Broadcast

/-!
Limits that are checked while a transform runs. A value that keeps its limits is passed on as it is;
empty texts and missing numbers are not checked.
-/

namespace ProfileConnector

structure TextLimits where
  least : Option Int := none
  most : Option Int := none
  pattern : Option Text := none
  format : Option Text := none
  deriving DecidableEq, Repr

structure NumberLimits where
  least : Value := .null
  most : Value := .null

namespace Row

def words (s : String) : Text := Text.ofString s

def require (name problem : Text) (holds : Bool) : Except RowFault Unit :=
  if holds then .ok () else .error (.invalid name problem)

def lengthWithin (name : Text) (limits : TextLimits) (value : Value) : Except RowFault Unit :=
  if limits.least.isNone && limits.most.isNone then .ok ()
  else do
    let size ← sizeOf value
    if let some least := limits.least then
      require name (words s!"length {size} is below minimum {least}") (least ≤ size)
    if let some most := limits.most then
      require name (words s!"length {size} exceeds maximum {most}") (size ≤ most)

def matchesPattern (name : Text) (pattern t : Text) : Except RowFault Unit :=
  match Pattern.read pattern.toChars with
  | .error .malformed => .error .malformedPattern
  | .error .countOverflow => .error .excessiveCount
  | .ok read =>
    require name (words "'" ++ t ++ words "' does not match pattern " ++ pattern) (read.found t)

/-- Unknown formats ask for nothing. -/
def hasFormat (name : Text) (format t : Text) : Except RowFault Unit :=
  match Format.ofName? format.toString with
  | none => .ok ()
  | some known => require name (words "'" ++ t ++ words "' is not a valid " ++ format) (known.accepts t)

def limitedText (name : Text) (limits : TextLimits) (value : Value) : Except RowFault Value := do
  if !value.truthy then pure value
  else
    lengthWithin name limits value
    if let some pattern := limits.pattern then
      match value with
      | .text t => matchesPattern name pattern t
      | _ => throw .wrongKind
    if let some format := limits.format then
      match value with
      | .text t => hasFormat name format t
      | _ => throw .wrongKind
    pure value

def numberText : Value → Text
  | .bool b => words (if b then "True" else "False")
  | .int n => words (toString n)
  | .float x => words x.text
  | _ => []

/-- One number is smaller than another; a comparison with what is not a number does not hold. -/
def below (a b : Value) : Except RowFault Bool :=
  match a.magnitude?, b.magnitude? with
  | some (some x), some (some y) => .ok (x.lt y)
  | some _, some _ => .ok false
  | _, _ => .error .wrongKind

def limitedNumber (name : Text) (limits : NumberLimits) (value : Value) : Except RowFault Value :=
  match value with
  | .null => .ok .null
  | value => do
    match limits.least with
    | .null => pure ()
    | least =>
      let tooSmall ← below value least
      require name (numberText value ++ words " is below minimum " ++ numberText least) (!tooSmall)
    match limits.most with
    | .null => pure ()
    | most =>
      let tooLarge ← below most value
      require name (numberText value ++ words " exceeds maximum " ++ numberText most) (!tooLarge)
    pure value

/-- Every element keeps the limits; the values are passed on as they are. -/
def eachLimited (check : Value → Except RowFault Value) (values : Value) : Except RowFault Value :=
  match values.elements? with
  | none => .error .wrongKind
  | some items => (items.mapM check).map fun _ => values

end Row

end ProfileConnector
