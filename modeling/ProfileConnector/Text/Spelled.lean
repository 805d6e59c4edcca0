import ProfileConnector.Text.Printable
import ProfileConnector.Text.Quoted

/-!
Literals that keep printable characters as they are. The quote is the apostrophe unless the text has
apostrophes and no double quotes; a character that is not printable is written as an escape of two,
four or eight digits.
-/

namespace ProfileConnector.Text

def spellingQuote (cs : List Char) : Char :=
  if cs.contains '\'' && !cs.contains '"' then '"' else '\''

def spellChar (quote c : Char) : List Char :=
  if c = quote ∨ c = '\\' then ['\\', c]
  else if c = '\n' then ['\\', 'n']
  else if c = '\r' then ['\\', 'r']
  else if c = '\t' then ['\\', 't']
  else if isPrintable c then [c]
  else if c.toNat < 0x100 then '\\' :: 'x' :: hexDigits 2 c.toNat
  else if c.toNat < 0x10000 then '\\' :: 'u' :: hexDigits 4 c.toNat
  else '\\' :: 'U' :: hexDigits 8 c.toNat

def spell (s : String) : String :=
  let quote := spellingQuote s.toList
  String.ofList (quote :: (s.toList.flatMap (spellChar quote) ++ [quote]))

example : spell "it's" = "\"it's\"" := by decide +kernel
example : spell "a'\"\u00a0é" = "'a\\'\"\\xa0é'" := by decide +kernel

end ProfileConnector.Text
