import SassModules.Text.Class

/-!
# Numbers in texts

Whole numbers written in decimal, hexadecimal digits, and the reading of a whole number from an argument: white space
around it, a sign, decimal digits of any script, and single underscores between digits.
-/

namespace SassModules.Text

/-- A natural number in decimal. -/
def ofNat (n : Nat) : Text := Nat.toDigits 10 n

/-- A whole number in decimal, a negative one with a hyphen in front. -/
def ofInt : Int → Text
  | .ofNat n => ofNat n
  | .negSucc n => '-' :: ofNat (n + 1)

/-- The last `width` hexadecimal digits of a number, in lower case. -/
def hexDigits : (width n : Nat) → Text
  | 0, _ => []
  | width + 1, n => hexDigits width (n / 16) ++ [Nat.digitChar (n % 16)]

/-- The value of a hexadecimal digit of either case. -/
def hexValue? (c : Char) : Option Nat :=
  if c.isDigit then some (c.toNat - 48)
  else if 'a' ≤ c ∧ c ≤ 'f' then some (c.toNat - 87)
  else if 'A' ≤ c ∧ c ≤ 'F' then some (c.toNat - 55)
  else none

/-- The value of a text in a base, given the value of each digit. -/
def digitsValue? (base : Nat) (digit? : Char → Option Nat) (t : Text) : Option Nat :=
  t.foldlM (fun n c => (digit? c).map (base * n + ·)) 0

/-- The digits of a number with single underscores between them; none when an underscore stands elsewhere. -/
def dropSeparators : (afterDigit : Bool) → Text → Option Text
  | afterDigit, [] => if afterDigit then some [] else none
  | true, '_' :: s => dropSeparators false s
  | _, c :: s => if c = '_' then none else (dropSeparators true s).map (c :: ·)

/-- The most digits that a number may be written with. -/
def maxDigits : Nat := 4300

/-- White space around a number: white space that is not one of the four information separators. -/
def isNumberBlank (c : Char) : Bool := isBlank c && !(28 ≤ c.toNat && c.toNat ≤ 31)

/-- Read a natural number without white space or sign. -/
def readNat? (t : Text) : Option Nat := do
  let digits ← dropSeparators false t
  guard (digits.length ≤ maxDigits)
  digitsValue? 10 digitValue? digits

/-- Read a whole number. -/
def readInt? (t : Text) : Option Int :=
  match dropEndWhile isNumberBlank (t.dropWhile isNumberBlank) with
  | '-' :: s => (readNat? s).map fun n => -(n : Int)
  | '+' :: s => (readNat? s).map Int.ofNat
  | s => (readNat? s).map Int.ofNat

end SassModules.Text
