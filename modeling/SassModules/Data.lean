import SassModules.Decimal.Shortest
import SassModules.Text.Number
import SassModules.Text.Quoted

/-!
# Data

What a settings file holds: the usual scalars, lists and mappings, and values of other types, of which only the wording in
messages is known. A mapping keeps its keys in the order of their first occurrence, and the last value of a key counts.
A whole number can be written only up to a number of digits.
-/

namespace SassModules

/-- A value of a settings file. -/
inductive Data where
  | null
  | bool (b : Bool)
  | int (n : Int)
  | float (x : Float)
  | text (t : Text)
  | list (items : List Data)
  | map (fields : List (Data × Data))
  | other (shown inner : Text)

namespace Data

/-- Why a text gives no data: it is malformed, or its reader raises something else. -/
inductive Defect where
  | malformed
  | raised (message : Text)

/-- Reads data from a text. -/
abbrev Reader := Text → Except Defect Data

/-- Numbers in messages: positional from `0.0001` up to sixteen whole digits. -/
def numberFormat : Decimal.NumberFormat := ⟨-3, 16, 2, "inf".toList, "nan".toList⟩

/-- How a truth value is spelt. -/
def boolText (b : Bool) : Text := if b then "True".toList else "False".toList

mutual

/-- A value inside another one: texts are in quotes. -/
def inner : Data → Text
  | .null => "None".toList
  | .bool b => boolText b
  | .int n => Text.ofInt n
  | .float x => numberFormat.ofFloat x
  | .text t => Text.quoted t
  | .list items => '[' :: Text.join ", " (innerItems items) ++ [']']
  | .map fields => '{' :: Text.join ", " (innerFields fields) ++ ['}']
  | .other _ inner => inner

/-- The items of a list. -/
def innerItems : List Data → List Text
  | [] => []
  | d :: ds => inner d :: innerItems ds

/-- The fields of a mapping. -/
def innerFields : List (Data × Data) → List Text
  | [] => []
  | (k, v) :: fs => (inner k ++ ": ".toList ++ inner v) :: innerFields fs

end

/-- A value in a message; a text that is not part of another value is shown as it is. -/
def shown : Data → Text
  | .text t => t
  | .other shown _ => shown
  | d => inner d

mutual

/-- Does a whole number stand in the value that has too many digits to be written? -/
def hasLongNumber : Data → Bool
  | .int n => (Text.ofNat n.natAbs).length > Text.maxDigits
  | .list items => hasLongItem items
  | .map fields => hasLongField fields
  | _ => false

/-- Does one of the items have such a number? -/
def hasLongItem : List Data → Bool
  | [] => false
  | d :: ds => hasLongNumber d || hasLongItem ds

/-- Does one of the fields have such a number? -/
def hasLongField : List (Data × Data) → Bool
  | [] => false
  | (k, v) :: fs => hasLongNumber k || hasLongNumber v || hasLongField fs

end

/-- The number that a scalar is as a key; truth values count as one and zero. -/
def keyNumber? : Data → Option Float
  | .bool b => some (if b then 1 else 0)
  | .int n => some (Float.ofInt n)
  | .float x => some x
  | _ => none

/-- Can the value be a key? -/
def isKey : Data → Bool
  | .list _ => false
  | .map _ => false
  | _ => true

/-- Are two keys the same? -/
def sameKey : Data → Data → Bool
  | .null, .null => true
  | .text s, .text t => s == t
  | .int m, .int n => m == n
  | a, b => match keyNumber? a, keyNumber? b with
    | some x, some y => x == y
    | _, _ => false

/-- Set the value of a key; a new key goes to the end. -/
def setField (key value : Data) : List (Data × Data) → List (Data × Data)
  | [] => [(key, value)]
  | (k, v) :: fs => if sameKey k key then (k, value) :: fs else (k, v) :: setField key value fs

/-- The value of a text key. -/
def field? (name : String) (fields : List (Data × Data)) : Option Data :=
  (fields.find? fun f => sameKey f.1 (.text name.toList)).map (·.2)

/-- The value of decimal digits with a point `places` digits from the end, times a power of ten. -/
def floatOf (digits places : Nat) (power : Int) : Float :=
  let exponent := power - places
  if 0 ≤ exponent then Float.ofScientific digits false exponent.toNat else Float.ofScientific digits true (-exponent).toNat

end Data

end SassModules
