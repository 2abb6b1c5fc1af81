import SassModules.Json.Basic

/-!
# Writing JSON

Output is ASCII: every other character is escaped, one outside the basic plane as a surrogate pair. With an indent each
item stands on a line of its own; without one, items follow a comma and a blank.
-/

namespace SassModules.Json

/-- One UTF-16 unit as an escape. -/
def unitEscape (n : Nat) : Text := "\\u".toList ++ Text.hexDigits 4 n

/-- A character inside quotes. -/
def escape (c : Char) : Text :=
  if c = '"' then "\\\"".toList
  else if c = '\\' then "\\\\".toList
  else if c = '\n' then "\\n".toList
  else if c = '\r' then "\\r".toList
  else if c = '\t' then "\\t".toList
  else if c = '\x08' then "\\b".toList
  else if c = '\x0c' then "\\f".toList
  else if 32 ≤ c.toNat ∧ c.toNat < 127 then [c]
  else if c.toNat < 0x10000 then unitEscape c.toNat
  else unitEscape (0xD800 + (c.toNat - 0x10000) / 1024) ++ unitEscape (0xDC00 + (c.toNat - 0x10000) % 1024)

/-- A text in quotes. -/
def quote (t : Text) : Text := '"' :: t.flatMap escape ++ ['"']

/-- A code point inside quotes, which may be half of a surrogate pair. -/
def escapePoint (n : Nat) : Text := if n.isValidChar then escape (Char.ofNat n) else unitEscape n

/-- The start of a line at a nesting level. -/
def newLine (indent level : Nat) : Text := '\n' :: List.replicate (indent * level) ' '

/-- Parts between brackets: on lines of their own one level deeper, or on one line. -/
def bracket (indent : Option Nat) (level : Nat) (opening closing : Char) (parts : List Text) : Text :=
  match parts, indent with
  | [], _ => [opening, closing]
  | _, none => opening :: Text.join ", " parts ++ [closing]
  | _, some n =>
    let start := newLine n (level + 1)
    opening :: start ++ (',' :: start).intercalate parts ++ newLine n level ++ [closing]

mutual

/-- A value at a nesting level. -/
def renderAt (indent : Option Nat) (level : Nat) : Json → Text
  | .null => "null".toList
  | .bool true => "true".toList
  | .bool false => "false".toList
  | .number literal => literal
  | .string t => quote t
  | .unpaired points => '"' :: points.flatMap escapePoint ++ ['"']
  | .array items => bracket indent level '[' ']' (renderItems indent (level + 1) items)
  | .object fields => bracket indent level '{' '}' (renderFields indent (level + 1) fields)

/-- The items of an array. -/
def renderItems (indent : Option Nat) (level : Nat) : List Json → List Text
  | [] => []
  | v :: vs => renderAt indent level v :: renderItems indent level vs

/-- The fields of an object. -/
def renderFields (indent : Option Nat) (level : Nat) : List (Text × Json) → List Text
  | [] => []
  | (name, v) :: fs => (quote name ++ ": ".toList ++ renderAt indent level v) :: renderFields indent level fs

end

/-- A value as a text. -/
def render (indent : Option Nat) (v : Json) : Text := renderAt indent 0 v

end SassModules.Json
