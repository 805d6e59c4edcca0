import ProfileConnector.Text.Quoted

/-!
Written addresses of the Internet Protocol. Version 4 has four decimal numbers below 256 without
leading zeros; version 6 has eight hexadecimal groups, a run of zero groups may be left out once, and
the last two groups may be written as an address of version 4.
-/

namespace ProfileConnector.Address

def isOctet (cs : List Char) : Bool :=
  !cs.isEmpty && cs.length ≤ 3 && cs.all Text.isAsciiDigit && (cs = ['0'] || cs.head? != some '0') &&
    cs.foldl (fun value c => value * 10 + (c.toNat - '0'.toNat)) 0 < 256

def isVersion4 (cs : List Char) : Bool :=
  let octets := cs.splitOn '.'
  octets.length = 4 && octets.all isOctet

def isGroup (cs : List Char) : Bool := cs.length ≤ 4 && cs.all fun c => (Text.hexValue? c).isSome

/-- The groups of a list in which a last part in version 4 has become two groups. -/
def groups? (parts : List (List Char)) : Option (List (List Char)) :=
  match parts.getLast? with
  | none => none
  | some last =>
    if !last.contains '.' then some parts
    else if isVersion4 last then some (parts.dropLast ++ [['0'], ['0']])
    else none

/-- The number of groups on one side of the gap; an empty part stands at the very end of the address only. -/
def sideLength? (parts : List (List Char)) : Option Nat :=
  if parts = [[]] then some 0 else if parts.contains [] then none else some parts.length

/-- Groups with one gap in them, which stands for at least one group. -/
def isShortened (parts : List (List Char)) (gap : Nat) : Bool :=
  match sideLength? (parts.take gap), sideLength? (parts.drop (gap + 1)) with
  | some before, some after => before + after < 8
  | _, _ => false

def isPlainVersion6 (cs : List Char) : Bool :=
  let parts := cs.splitOn ':'
  match if parts.length < 3 then none else groups? parts with
  | none => false
  | some parts =>
    parts.length ≤ 9 && parts.all isGroup &&
      match (List.range parts.length).filter fun i => 0 < i && i + 1 < parts.length && parts[i]? == some [] with
      | [] => parts.length = 8 && !parts.contains []
      | [gap] => isShortened parts gap
      | _ => false

/-- A scope stands behind a percent sign and is not empty. -/
def isVersion6 (cs : List Char) : Bool :=
  !cs.contains '/' &&
    match cs.splitOn '%' with
    | [address] => isPlainVersion6 address
    | [address, scope] => !scope.isEmpty && isPlainVersion6 address
    | _ => false

example : isVersion4 "10.0.0.1".toList ∧ isVersion4 "01.2.3.4".toList = false := by decide
example : isVersion6 "::ffff:1.2.3.4".toList ∧ isVersion6 "fe80::1%eth0".toList ∧
    isVersion6 "1:2:3:4:5:6:7::".toList ∧ isVersion6 ":::".toList = false := by decide

end ProfileConnector.Address
