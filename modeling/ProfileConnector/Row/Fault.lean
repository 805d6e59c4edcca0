import ProfileConnector.Plan.Basic
import ProfileConnector.Text.CodePoint

/-!
What can go wrong while a transform runs over a row.
-/

namespace ProfileConnector

inductive RowFault where
  /-- A value of a property breaks one of its limits. -/
  | invalid (property problem : Text)
  | missingMapping (property : Text)
  | unreadable
  | unbounded
  | wrongKind
  | outOfRange
  | missingKey
  | malformedPattern
  | excessiveCount
  | unboundName (name : String)
  deriving DecidableEq, Repr

def RowFault.message? : RowFault → Option Text
  | .invalid property problem =>
    some (Text.ofString "Invalid value for '" ++ property ++ Text.ofString "': " ++ problem)
  | .missingMapping property => some (Text.ofString (Plan.missingMappingMessage property.toString))
  | _ => none

end ProfileConnector
