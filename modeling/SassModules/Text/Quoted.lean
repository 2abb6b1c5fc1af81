import SassModules.Text.Number

/-!
# Quoted texts

A text in single quotes, or in double quotes when it holds a single quote and no double quote. Characters that would not
show are escaped by their code points.
-/

namespace SassModules.Text

/-- A character between the given quotes. -/
def escapeWithin (mark c : Char) : Text :=
  if c = mark ∨ c = '\\' then ['\\', c]
  else if c = '\n' then "\\n".toList
  else if c = '\r' then "\\r".toList
  else if c = '\t' then "\\t".toList
  else if isPrintable c then [c]
  else if c.toNat < 0x100 then "\\x".toList ++ hexDigits 2 c.toNat
  else if c.toNat < 0x10000 then "\\u".toList ++ hexDigits 4 c.toNat
  else "\\U".toList ++ hexDigits 8 c.toNat

/-- The quotes for a text. -/
def quoteMark (t : Text) : Char := if t.contains '\'' && !t.contains '"' then '"' else '\''

/-- A text in quotes. -/
def quoted (t : Text) : Text := quoteMark t :: t.flatMap (escapeWithin (quoteMark t)) ++ [quoteMark t]

end SassModules.Text
