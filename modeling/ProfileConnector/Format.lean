import ProfileConnector.Address
import ProfileConnector.Moment
import ProfileConnector.Pattern.Reader
import ProfileConnector.Text.Small

/-!
Named formats of text: what the `format` of a property may ask of a value.
-/

namespace ProfileConnector

inductive Format where
  | email | uri | uuid | hostname | version4 | version6 | date | moment
  deriving DecidableEq, Repr

namespace Format

def named : List (String × Format) := [
  ("email", .email), ("uri", .uri), ("url", .uri), ("uuid", .uuid), ("hostname", .hostname),
  ("ipv4", .version4), ("ipv6", .version6), ("date", .date), ("date-time", .moment)]

def ofName? (name : String) : Option Format := named.lookup (Text.smallString name)

def pattern? : Format → Option String
  | .email => some "^[^@\\s]+@[^@\\s]+\\.[^@\\s]+$"
  | .uri => some "^[A-Za-z][A-Za-z0-9+.\\-]*://\\S+$"
  | .uuid => some
      "^[0-9a-fA-F]\x7b8\x7d-[0-9a-fA-F]\x7b4\x7d-[0-9a-fA-F]\x7b4\x7d-[0-9a-fA-F]\x7b4\x7d-[0-9a-fA-F]\x7b12\x7d$"
  | .hostname =>
    let label := "[A-Za-z0-9](?:[A-Za-z0-9\\-]\x7b0,61\x7d[A-Za-z0-9])?"
    some s!"^(?=.\x7b1,253\x7d$){label}(?:\\.{label})*$"
  | _ => none

def matchesWritten (written : String) (text : Text) : Bool :=
  match Pattern.read written.toList with
  | .ok pattern => pattern.found text
  | .error _ => false

def accepts (format : Format) (text : Text) : Bool :=
  match format with
  | .version4 => text.scalars?.any Address.isVersion4
  | .version6 => text.scalars?.any Address.isVersion6
  | .date => text.scalars?.any Moment.isDate
  | .moment => text.scalars?.any Moment.isMoment
  | format => format.pattern?.any fun written => matchesWritten written text

example : email.accepts (Text.ofString "a@b.c") ∧ email.accepts (Text.ofString "a@b") = false := by decide +kernel
example : hostname.accepts (Text.ofString "a-b.c") ∧ hostname.accepts (Text.ofString "a-.c") = false := by
  decide +kernel

end Format

end ProfileConnector
