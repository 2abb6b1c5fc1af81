import SassModules.Data

/-!
# Plain scalars

What a scalar without quotes stands for: null, a truth value, a whole number, a floating-point number, or else a text.
Whole numbers may be binary, octal, hexadecimal or sexagesimal, and digits may be parted by underscores.
-/

namespace SassModules.Yaml

/-- A word in lower case, capitalised or in upper case. -/
def spellings (w : String) : List Text :=
  let t := w.toList
  [t, t.modifyHead Char.toUpper, t.map Char.toUpper]

/-- Is the text one of the words, in one of their spellings? -/
def isWordOf (ws : List String) (t : Text) : Bool := (ws.flatMap spellings).contains t

/-- The truth value that a word stands for. -/
def truth? (t : Text) : Option Bool :=
  if isWordOf ["yes", "true", "on"] t then some true
  else if isWordOf ["no", "false", "off"] t then some false
  else none

/-- Does the text stand for null? -/
def isNull (t : Text) : Bool := t == [] || t == ['~'] || isWordOf ["null"] t

/-- The sign in front of a number and what follows it. -/
def sign : Text → Bool × Text
  | '-' :: t => (true, t)
  | '+' :: t => (false, t)
  | t => (false, t)

/-- Is every character a digit of the base or an underscore? -/
def isDigits (base : Nat) (t : Text) : Bool :=
  t.all fun c => c == '_' || (Text.hexValue? c).any (· < base)

/-- The text without underscores. -/
def dropUnderscores (t : Text) : Text := t.filter (· != '_')

/-- The value of digits in a base, underscores left out. -/
def valueIn (base : Nat) (t : Text) : Nat := (Text.digitsValue? base Text.hexValue? (dropUnderscores t)).getD 0

/-- One or two digits below sixty. -/
def isSixtieth (t : Text) : Bool := match t with
  | [a] => a.isDigit
  | [a, b] => '0' ≤ a && a ≤ '5' && b.isDigit
  | _ => false

/-- The value of sexagesimal digits. -/
def sexagesimal (parts : List Text) : Nat := parts.foldl (fun n p => 60 * n + valueIn 10 p) 0

/-- Is it a decimal number that does not start with zero? -/
def isDecimal : Text → Bool
  | c :: t => '1' ≤ c && c ≤ '9' && isDigits 10 t
  | [] => false

/-- The natural number that a text without sign stands for. -/
def natural? (t : Text) : Option Nat :=
  match t with
  | ['0'] => some 0
  | '0' :: 'b' :: ds => if ds != [] && isDigits 2 ds then some (valueIn 2 ds) else none
  | '0' :: 'x' :: ds => if ds != [] && isDigits 16 ds then some (valueIn 16 ds) else none
  | '0' :: ds => if isDigits 8 ds then some (valueIn 8 ds) else none
  | _ =>
    match t.splitOn ':' with
    | [ds] => if isDecimal ds then some (valueIn 10 ds) else none
    | ds :: parts => if isDecimal ds && parts.all isSixtieth then some (sexagesimal (ds :: parts)) else none
    | [] => none

/-- How many digits the decimal parts of a text that stands for a number have, where it is written in decimal. -/
def decimalDigits (t : Text) : List Nat :=
  match (sign t).2 with
  | '0' :: _ => []
  | ds => (ds.splitOn ':').map fun part => (dropUnderscores part).length

/-- The whole number that a text stands for. -/
def integer? (t : Text) : Option Int :=
  let (negative, t) := sign t
  (natural? t).map fun n => if negative then -(n : Int) else n

/-- The exponent of a floating-point number, with its sign, if it is one. -/
def power? : Text → Option Int
  | [] => some 0
  | e :: s :: ds =>
    if (e == 'e' || e == 'E') && (s == '+' || s == '-') && ds != [] && ds.all Char.isDigit then
      some (if s = '-' then -(valueIn 10 ds : Int) else valueIn 10 ds)
    else none
  | _ => none

/-- The number of digits around a point, behind the given whole part. -/
def decimal? (whole : Nat) (t : Text) : Option Float := do
  let places := t.takeWhile fun c => c.isDigit || c == '_'
  let power ← power? (t.drop places.length)
  let fraction := dropUnderscores places
  some (Data.floatOf (whole * Nat.pow 10 fraction.length + valueIn 10 fraction) fraction.length power)

/-- Is it a digit and then digits or underscores? -/
def isDigitRun : Text → Bool
  | c :: t => c.isDigit && isDigits 10 t
  | [] => false

/-- The floating-point number that a text without sign stands for. -/
def fractional? (t : Text) : Option Float :=
  let whole := t.takeWhile (· != '.')
  match t.drop whole.length with
  | '.' :: rest =>
    match whole.splitOn ':' with
    | [[]] => if rest.head?.any Char.isDigit then decimal? 0 rest else none
    | [ds] => if isDigitRun ds then decimal? (valueIn 10 ds) rest else none
    | ds :: parts =>
      if isDigitRun ds && parts.all isSixtieth && isDigits 10 rest then decimal? (sexagesimal (ds :: parts)) rest
      else none
    | [] => none
  | _ => none

/-- The floating-point number that a text stands for. A fraction without a whole part has no sign. -/
def float? (t : Text) : Option Float :=
  let (negative, u) := sign t
  let signed := t.length != u.length
  if [".inf", ".Inf", ".INF"].any (·.toList == u) then some (if negative then -(1.0 / 0.0) else 1.0 / 0.0)
  else if [".nan", ".NaN", ".NAN"].any (·.toList == t) then some (0.0 / 0.0)
  else if signed && u.head? == some '.' then none
  else (fractional? u).map fun x => if negative then -x else x

/-- What a plain scalar stands for; the words of other schemas stand for nothing. -/
def resolve? (t : Text) : Option Data :=
  if isNull t then some .null
  else if t == ['='] || t == ['<', '<'] then none
  else match truth? t, integer? t, float? t with
    | some b, _, _ => some (.bool b)
    | none, some n, _ => some (.int n)
    | none, none, some x => some (.float x)
    | none, none, none => some (.text t)

end SassModules.Yaml
