import ProfileConnector.Script.Call

/-!
Evaluation of terms. Names are looked up in the bindings at hand, latest first; arguments are
evaluated from left to right, those of a function that is applied before its body. A literal denotes
the code points that its four-digit escapes spell, so a character above `U+FFFF` becomes two halves.
-/

namespace ProfileConnector

abbrev Bindings := List (String × Value)

namespace Constant

/-- The value of a constant; the words for numbers that are not finite are names that nothing binds. -/
def value : Constant → Except RowFault Value
  | .int n => .ok (.int n)
  | .float (.finite negative mantissa exponent) => .ok (.float (.finite negative mantissa exponent))
  | .float x => .error (.unboundName x.text)
  | .text s => .ok (Value.ofString s)

end Constant

namespace Term

open Text (literalText)

def lookup (bindings : Bindings) (name : String) : Except RowFault Value :=
  match KeyedList.get? name bindings with
  | some value => .ok value
  | none => .error (.unboundName name)

mutual

def evaluate (bindings : Bindings) : Term → Except RowFault Value
  | .absent => .ok .null
  | .variable name => lookup bindings name
  | .literal s => .ok (.text (literalText s))
  | .literals ss => .ok (.list (ss.map fun s => .text (literalText s)))
  | .emptyList => .ok (.list [])
  | .dictionary entries => do pure (.record (KeyedList.ofPairs (← evaluateEntries bindings entries)))
  | .call helper arguments options => do
    let values ← evaluateAll bindings arguments
    let named ← options.mapM fun (name, constant) => do pure (name, ← constant.value)
    helper.run values named
  | .positions lists => do
    let length ← Row.broadcastLength (← evaluateAll bindings lists)
    pure (.list ((List.range length).map fun i => .int (i : Nat)))
  | .construct _ value => evaluate bindings value
  | .singleton value => do
    let result ← evaluate bindings value
    pure (.list (if result.truthy then [result] else []))
  | .orAbsent value => do
    let result ← evaluate bindings value
    pure (if result.truthy then result else .null)
  | .comprehension body name source => do
    match (← evaluate bindings source).elements? with
    | none => throw .wrongKind
    | some items => do pure (.list (← items.mapM fun item => evaluate ((name, item) :: bindings) body))
  | .apply names body arguments => do
    let values ← evaluateAll bindings arguments
    evaluate (names.zip values ++ bindings) body

def evaluateAll (bindings : Bindings) : List Term → Except RowFault (List Value)
  | [] => .ok []
  | term :: rest => do pure ((← evaluate bindings term) :: (← evaluateAll bindings rest))

def evaluateEntries (bindings : Bindings) : List (String × Term) → Except RowFault (List (Text × Value))
  | [] => .ok []
  | (key, value) :: rest => do
    pure ((literalText key, ← evaluate bindings value) :: (← evaluateEntries bindings rest))

end

def run (term : Term) (row : Value) : Except RowFault Value := evaluate [("row", row)] term

end Term

end ProfileConnector
