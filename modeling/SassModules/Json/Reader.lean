import SassModules.Json.Basic
import SassModules.Text.Pattern

/-!
# Reading JSON

White space is blank, tab, carriage return and line feed. A string holds no raw control character; `NaN`, `Infinity` and
`-Infinity` are numbers. Two escaped surrogates that form a pair are one character. A whole number is read only up to a
number of digits; whether a text has such a number or is malformed is decided by what comes first. The readers take a
bound on the nesting, for which twice the length of the text always suffices.
-/

namespace SassModules.Json

/-- Why a text is not read: it is malformed, or a whole number in it has too many digits. -/
inductive Defect where
  | malformed
  | tooManyDigits (count : Nat)
deriving DecidableEq

/-- Reads a part of a value at the head of a text. -/
abbrev Reader (α : Type) := Text → Except Defect (α × Text)

/-- White space between the parts of a value. -/
def skipBlanks (s : Text) : Text := s.dropWhile fun c => c == ' ' || c == '\t' || c == '\n' || c == '\r'

/-- The value of four hexadecimal digits. -/
def hex4? : Pattern Nat
  | a :: b :: c :: d :: s => (Text.digitsValue? 16 Text.hexValue? [a, b, c, d]).map (·, s)
  | _ => none

/-- The character that a one-letter escape stands for. -/
def shortEscape? : Char → Option Char
  | '"' => some '"'
  | '\\' => some '\\'
  | '/' => some '/'
  | 'b' => some '\x08'
  | 'f' => some '\x0c'
  | 'n' => some '\n'
  | 'r' => some '\r'
  | 't' => some '\t'
  | _ => none

/-- Is it the first half of a surrogate pair? -/
def isHigh (n : Nat) : Bool := 0xD800 ≤ n && n ≤ 0xDBFF

/-- Is it the second half of a surrogate pair? -/
def isLow (n : Nat) : Bool := 0xDC00 ≤ n && n ≤ 0xDFFF

/-- The code point that the two halves of a surrogate pair stand for. -/
def pairPoint (high low : Nat) : Nat := 0x10000 + 1024 * (high - 0xD800) + (low - 0xDC00)

/-- The code points of the rest of a string, up to and without the closing quote. `used` characters belong to an escape
that was read already. -/
def stringBody : (used : Nat) → Pattern (List Nat)
  | _, [] => none
  | used + 1, _ :: s => stringBody used s
  | 0, '"' :: s => some ([], s)
  | 0, '\\' :: s =>
    match s with
    | 'u' :: t => do
      let (n, t) ← hex4? t
      let pair : Option Nat := do
        guard (isHigh n)
        let (m, _) ← hex4? (← Pattern.literal "\\u" t)
        guard (isLow m)
        some m
      match pair with
      | some m => (stringBody 11 s).map fun r => (pairPoint n m :: r.1, r.2)
      | none => (stringBody 5 s).map fun r => (n :: r.1, r.2)
    | c :: _ => do
      let e ← shortEscape? c
      (stringBody 1 s).map fun r => (e.toNat :: r.1, r.2)
    | [] => none
  | 0, c :: s => if c.toNat < 32 then none else (stringBody 0 s).map fun r => (c.toNat :: r.1, r.2)

/-- The digits at the head of a text, at least one. -/
def digits1 : Pattern Text := Pattern.run1 Char.isDigit

/-- The whole part of a number: no digit follows a leading zero. -/
def wholePart : Pattern Text
  | '0' :: s => some (['0'], s)
  | s => digits1 s

/-- A point and digits, if they are there. -/
def fraction (s : Text) : Text × Text :=
  match s with
  | '.' :: t => match digits1 t with
    | some (ds, rest) => ('.' :: ds, rest)
    | none => ([], s)
  | _ => ([], s)

/-- One of some characters, if it is there. -/
def oneOf (signs : List Char) : Text → Text × Text
  | [] => ([], [])
  | c :: s => if c ∈ signs then ([c], s) else ([], c :: s)

/-- An exponent, if it is there. -/
def exponent : Text → Text × Text
  | [] => ([], [])
  | e :: t =>
    if e = 'e' ∨ e = 'E' then
      let (sign, u) := oneOf ['+', '-'] t
      match digits1 u with
      | some (ds, rest) => (e :: sign ++ ds, rest)
      | none => ([], e :: t)
    else ([], e :: t)

/-- A number, as it is written. -/
def numberLiteral : Pattern Text := fun s => do
  let (sign, t) := oneOf ['-'] s
  let (whole, t) ← wholePart t
  let (frac, t) := fraction t
  let (exp, t) := exponent t
  some (sign ++ whole ++ frac ++ exp, t)

/-- The names that are values. -/
def constants : List (String × Json) :=
  [("null", .null), ("true", .bool true), ("false", .bool false), ("NaN", .number "NaN".toList),
   ("Infinity", .number "Infinity".toList), ("-Infinity", .number "-Infinity".toList)]

/-- The digits of a literal that is a whole number; none when it has a fraction or an exponent. -/
def wholeDigits (literal : Text) : Text :=
  let digits := literal.dropWhile (· == '-')
  if digits.all Char.isDigit then digits else []

/-- A number, if it has not too many digits. -/
def numeric : Reader Json := fun s =>
  match numberLiteral s with
  | none => .error .malformed
  | some (literal, rest) =>
    if (wholeDigits literal).length > Text.maxDigits then .error (.tooManyDigits (wholeDigits literal).length)
    else .ok (.number literal, rest)

/-- A value without parts. -/
def scalar : Reader Json
  | '"' :: s =>
    match stringBody 0 s with
    | some (points, rest) => .ok (.ofPoints points, rest)
    | none => .error .malformed
  | s =>
    match constants.findSome? fun c => (Pattern.literal c.1 s).map fun rest => (c.2, rest) with
    | some r => .ok r
    | none => numeric s

/-- The name of a field, with the colon behind it; none for a string that is no text. -/
def fieldName : Pattern (Option Text) := fun s => do
  let (points, t) ← stringBody 0 (← Pattern.literal "\"" s)
  let t ← Pattern.literal ":" (skipBlanks t)
  some ((ofPoints points).text?, skipBlanks t)

/-- Put a field in front of others. A field whose name is no text cannot be asked for and is left out. -/
def consField (name : Option Text) (v : Json) (fields : List (Text × Json)) : List (Text × Json) :=
  (name.map (·, v)).toList ++ fields

mutual

/-- A value. -/
def value : (depth : Nat) → Reader Json
  | 0, _ => .error .malformed
  | depth + 1, '[' :: s =>
    match skipBlanks s with
    | ']' :: rest => .ok (.array [], rest)
    | t => (items depth t).map fun r => (.array r.1, r.2)
  | depth + 1, '{' :: s =>
    match skipBlanks s with
    | '}' :: rest => .ok (.object [], rest)
    | t => (fields depth t).map fun r => (.object r.1, r.2)
  | _ + 1, s => scalar s

/-- The items of an array that has some, with the closing bracket. -/
def items : (depth : Nat) → Reader (List Json)
  | 0, _ => .error .malformed
  | depth + 1, s => do
    let (v, t) ← value depth s
    match skipBlanks t with
    | ']' :: rest => .ok ([v], rest)
    | ',' :: rest => (items depth (skipBlanks rest)).map fun r => (v :: r.1, r.2)
    | _ => .error .malformed

/-- The fields of an object that has some, with the closing brace. -/
def fields : (depth : Nat) → Reader (List (Text × Json))
  | 0, _ => .error .malformed
  | depth + 1, s =>
    match fieldName s with
    | none => .error .malformed
    | some (name, t) => do
      let (v, t) ← value depth t
      match skipBlanks t with
      | '}' :: rest => .ok (consField name v [], rest)
      | ',' :: rest => (fields depth (skipBlanks rest)).map fun r => (consField name v r.1, r.2)
      | _ => .error .malformed

end

/-- Read a text that is one value, with white space around it. -/
def read (t : Text) : Except Defect Json := do
  let (v, rest) ← value (2 * t.length + 1) (skipBlanks t)
  if skipBlanks rest = [] then .ok v else .error .malformed

/-- The value of a text that can be read. -/
def ofText? (t : Text) : Option Json := (read t).toOption

end SassModules.Json
