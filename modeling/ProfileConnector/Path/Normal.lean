import ProfileConnector.Identifier
import ProfileConnector.Text.CodePoint

/-!
Document paths in normal form. A path that a user writes is cut at the dots outside quotes and
brackets; plain segments get a dot, all others are quoted in brackets. The normal form starts at the
root `$`.
-/

namespace ProfileConnector.Path

/-- What has been seen of a path so far, as far as it decides whether a dot cuts. -/
structure Cursor where
  depth : Nat := 0
  inSingle : Bool := false
  inDouble : Bool := false
  escaped : Bool := false

namespace Cursor

def quoted (cursor : Cursor) : Bool := cursor.inSingle || cursor.inDouble

def cuts (cursor : Cursor) (point : CodePoint) : Bool :=
  !cursor.escaped && !cursor.quoted && cursor.depth == 0 && point == .scalar '.'

def advance (cursor : Cursor) (point : CodePoint) : Cursor :=
  if cursor.escaped then { cursor with escaped := false }
  else match point with
    | .scalar '\\' => { cursor with escaped := true }
    | .scalar '\'' => if cursor.inDouble then cursor else { cursor with inSingle := !cursor.inSingle }
    | .scalar '"' => if cursor.inSingle then cursor else { cursor with inDouble := !cursor.inDouble }
    | .scalar '[' => if cursor.quoted then cursor else { cursor with depth := cursor.depth + 1 }
    | .scalar ']' => if cursor.quoted then cursor else { cursor with depth := cursor.depth - 1 }
    | _ => cursor

end Cursor

/-- The text up to the first cut, and the segments after it; empty segments are left out. -/
def cut (cursor : Cursor) : Text → Text × List Text
  | [] => ([], [])
  | point :: rest =>
    let (front, others) := cut (cursor.advance point) rest
    if cursor.cuts point then ([], if front.isEmpty then others else front :: others)
    else (point :: front, others)

def segments (t : Text) : List Text :=
  let (front, others) := cut {} t
  if front.isEmpty then others else front :: others

def isStart : CodePoint → Bool := CodePoint.satisfies Identifier.isStart

def isPart : CodePoint → Bool := CodePoint.satisfies Identifier.isPart

def isEnd : Text → Bool
  | [] => true
  | [.scalar '\n'] => true
  | _ => false

def afterIdentifier : Text → Option Text
  | [] => none
  | point :: rest => if isStart point then some (rest.dropWhile isPart) else none

def isSimple (segment : Text) : Bool :=
  match afterIdentifier segment with
  | some rest => isEnd rest
  | none => false

/-- Bracketed texts up to the end; `filled` tells whether the open bracket holds something. -/
def closesAll (filled : Bool) : Text → Bool
  | [] => false
  | .scalar ']' :: rest =>
    filled && (isEnd rest || match rest with
      | .scalar '[' :: more => closesAll false more
      | _ => false)
  | _ :: rest => closesAll true rest

/-- A plain member name with bracketed texts behind it. -/
def isIndexed (segment : Text) : Bool :=
  match afterIdentifier segment with
  | some (.scalar '[' :: rest) => closesAll false rest
  | _ => false

def escapePoint : CodePoint → Text
  | .scalar '\\' => [.scalar '\\', .scalar '\\']
  | .scalar '\'' => [.scalar '\\', .scalar '\'']
  | point => [point]

def encode (segment : Text) : Text :=
  if isSimple segment || isIndexed segment then .scalar '.' :: segment
  else .scalar '[' :: .scalar '\'' :: (segment.flatMap escapePoint ++ [.scalar '\'', .scalar ']'])

def normalize (path : Text) : Text :=
  match Text.trim path with
  | [] => []
  | .scalar '$' :: rest => .scalar '$' :: rest
  | .scalar '[' :: rest => .scalar '$' :: .scalar '[' :: rest
  | trimmed =>
    match segments trimmed with
    | [] => []
    | parts => .scalar '$' :: parts.flatMap encode

end ProfileConnector.Path
