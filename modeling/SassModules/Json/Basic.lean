import SassModules.Text.Number

/-!
# JSON values

A number is kept as it is written, because nothing here computes with it. A string in which half of a surrogate pair
stands alone is no text, and is kept as its code points. An object keeps its fields in order; when a name occurs twice, the
last field counts.
-/

namespace SassModules

/-- A JSON value. -/
inductive Json where
  | null
  | bool (b : Bool)
  | number (literal : Text)
  | string (t : Text)
  | unpaired (points : List Nat)
  | array (items : List Json)
  | object (fields : List (Text × Json))

namespace Json

/-- A whole number. -/
def ofInt (n : Int) : Json := .number (Text.ofInt n)

/-- A text, or null in its absence. -/
def textOrNull : Option Text → Json
  | some t => .string t
  | none => .null

/-- The last field of a name. -/
def field? (name : Text) : Json → Option Json
  | .object fields => (fields.findRev? (·.1 == name)).map (·.2)
  | _ => none

/-- The text of a string. -/
def text? : Json → Option Text
  | .string t => some t
  | _ => none

/-- The string of code points. -/
def ofPoints (points : List Nat) : Json :=
  if points.all fun n => decide n.isValidChar then .string (points.map Char.ofNat) else .unpaired points

end Json

end SassModules
