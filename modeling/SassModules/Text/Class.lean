import SassModules.Text.Basic
import SassModules.Text.Alphanumeric
import SassModules.Text.Unprintable

/-!
# Character classes

White space, word characters and printable characters as Unicode has them. The ASCII part of each class is a plain test,
so that a proof about ASCII input never opens a table.
-/

namespace SassModules.Text

/-- Does a code point lie in one of the closed ranges? -/
def inRanges (ranges : List (Nat × Nat)) (n : Nat) : Bool := ranges.any fun r => r.1 ≤ n && n ≤ r.2

/-- White space: the ASCII controls that separate, and the Unicode spaces and line separators. -/
def isBlank (c : Char) : Bool :=
  let n := c.toNat
  if n < 128 then n == 32 || (9 ≤ n && n ≤ 13) || (28 ≤ n && n ≤ 31)
  else n == 0x85 || n == 0xA0 || n == 0x1680 || (0x2000 ≤ n && n ≤ 0x200A) || n == 0x2028 || n == 0x2029 ||
    n == 0x202F || n == 0x205F || n == 0x3000

/-- A letter, a digit or another character with a numeric value. -/
def isAlphanumeric (c : Char) : Bool := if c.toNat < 128 then c.isAlphanum else inRanges alphanumericRanges c.toNat

/-- A word character: alphanumeric or the underscore. -/
def isWord (c : Char) : Bool := c == '_' || isAlphanumeric c

/-- A character of a member name, an alias or a prefix: a word character or the hyphen. -/
def isNameChar (c : Char) : Bool := c == '-' || isWord c

/-- Is the character shown as itself when a text is quoted? -/
def isPrintable (c : Char) : Bool :=
  if c.toNat < 128 then 32 ≤ c.toNat && c.toNat < 127 else !inRanges unprintableRanges c.toNat

/-- The value of a decimal digit of any script. -/
def digitValue? (c : Char) : Option Nat :=
  if c.toNat < 128 then if c.isDigit then some (c.toNat - 48) else none
  else (decimalZeros.find? fun z => z ≤ c.toNat && c.toNat ≤ z + 9).map (c.toNat - ·)

/-- The text without white space at its start. -/
def trimStart (t : Text) : Text := t.dropWhile isBlank

/-- The text without white space at its end. -/
def trimEnd (t : Text) : Text := t.dropEndWhile isBlank

/-- The text without white space at either end. -/
def trim (t : Text) : Text := trimEnd (trimStart t)

end SassModules.Text
