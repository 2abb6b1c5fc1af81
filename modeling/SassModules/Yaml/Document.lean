import SassModules.Fault
import SassModules.Yaml.Scalar
import SassModules.Yaml.Token

/-!
# YAML documents

The value of a text that is one document. A node that is left out is null. The readers take a bound on the nesting, for
which twice the number of tokens always suffices. Each reader gives what the tokens in front stand for and the tokens left.
-/

namespace SassModules.Yaml

/-- Add a field to a mapping; a collection cannot be a key. -/
def addField (key value : Data) (fields : List (Data × Data)) : Option (List (Data × Data)) :=
  if key.isKey then some (Data.setField key value fields) else none

/-- Does a token end the node that is expected in front of it? -/
def closes (ends : List Token) : List Token → Bool
  | t :: _ => ends.contains t
  | [] => false

mutual

/-- A node. A sequence may stand at the indentation of the mapping around it. -/
def node (isBlock indentless : Bool) : (depth : Nat) → List Token → Option (Data × List Token)
  | 0, _ => none
  | _ + 1, .scalar t isPlain :: ts => if isPlain then (resolve? t).map (·, ts) else some (.text t, ts)
  | depth + 1, .flowSequenceStart :: ts => (flowItems depth true ts).map fun r => (.list r.1, r.2)
  | depth + 1, .flowMappingStart :: ts => (flowFields depth true [] ts).map fun r => (.map r.1, r.2)
  | depth + 1, .sequenceStart :: ts =>
    if isBlock then (items depth ts).map fun r => (.list r.1, r.2) else none
  | depth + 1, .mappingStart :: ts =>
    if isBlock then (fields depth [] ts).map fun r => (.map r.1, r.2) else none
  | depth + 1, .entry :: ts =>
    if indentless then (indentlessItems depth (.entry :: ts)).map fun r => (.list r.1, r.2) else none
  | _ + 1, _ => none

/-- A node that may be left out in front of some tokens. -/
def nodeOrNull (isBlock indentless : Bool) (ends : List Token) : (depth : Nat) → List Token → Option (Data × List Token)
  | 0, _ => none
  | depth + 1, ts => if closes ends ts then some (.null, ts) else node isBlock indentless depth ts

/-- The items of a block sequence. -/
def items : (depth : Nat) → List Token → Option (List Data × List Token)
  | 0, _ => none
  | depth + 1, .entry :: ts => do
    let (d, ts) ← nodeOrNull true false [.entry, .blockEnd] depth ts
    let (ds, ts) ← items depth ts
    some (d :: ds, ts)
  | _ + 1, .blockEnd :: ts => some ([], ts)
  | _ + 1, _ => none

/-- The items of a sequence at the indentation of the mapping around it. -/
def indentlessItems : (depth : Nat) → List Token → Option (List Data × List Token)
  | 0, _ => none
  | depth + 1, .entry :: ts => do
    let (d, ts) ← nodeOrNull true false [.entry, .key, .value, .blockEnd] depth ts
    let (ds, ts) ← indentlessItems depth ts
    some (d :: ds, ts)
  | _ + 1, ts => some ([], ts)

/-- The value of a key, behind its colon. -/
def fieldValue (isBlock : Bool) (ends : List Token) : (depth : Nat) → List Token → Option (Data × List Token)
  | 0, _ => none
  | depth + 1, .value :: ts => nodeOrNull isBlock isBlock ends depth ts
  | _ + 1, ts => some (.null, ts)

/-- The fields of a block mapping, after those in front of them. -/
def fields : (depth : Nat) → List (Data × Data) → List Token → Option (List (Data × Data) × List Token)
  | 0, _, _ => none
  | depth + 1, front, .key :: ts => do
    let (k, ts) ← nodeOrNull true true [.key, .value, .blockEnd] depth ts
    let (v, ts) ← fieldValue true [.key, .value, .blockEnd] depth ts
    fields depth (← addField k v front) ts
  | _ + 1, front, .blockEnd :: ts => some (front, ts)
  | _ + 1, _, _ => none

/-- The items of a flow sequence; a key without braces is a mapping of one field. -/
def flowItems : (depth : Nat) → (isFirst : Bool) → List Token → Option (List Data × List Token)
  | 0, _, _ => none
  | _ + 1, _, .flowSequenceEnd :: ts => some ([], ts)
  | depth + 1, false, .comma :: ts => flowItems depth true ts
  | _ + 1, false, _ => none
  | depth + 1, true, .key :: ts => do
    let (k, ts) ← nodeOrNull false false [.value, .comma, .flowSequenceEnd] depth ts
    let (v, ts) ← fieldValue false [.comma, .flowSequenceEnd] depth ts
    let (ds, ts) ← flowItems depth false ts
    some (.map (← addField k v []) :: ds, ts)
  | depth + 1, true, ts => do
    let (d, ts) ← node false false depth ts
    let (ds, ts) ← flowItems depth false ts
    some (d :: ds, ts)

/-- The fields of a flow mapping, after those in front of them; a key may lack its value. -/
def flowFields : (depth : Nat) → (isFirst : Bool) → List (Data × Data) → List Token → Option (List (Data × Data) × List Token)
  | 0, _, _, _ => none
  | _ + 1, _, front, .flowMappingEnd :: ts => some (front, ts)
  | depth + 1, false, front, .comma :: ts => flowFields depth true front ts
  | _ + 1, false, _, _ => none
  | depth + 1, true, front, .key :: ts => do
    let (k, ts) ← nodeOrNull false false [.value, .comma, .flowMappingEnd] depth ts
    let (v, ts) ← fieldValue false [.comma, .flowMappingEnd] depth ts
    flowFields depth false (← addField k v front) ts
  | depth + 1, true, front, ts => do
    let (k, ts) ← node false false depth ts
    flowFields depth false (← addField k .null front) ts

end

/-- Skip the marks that end a document. -/
def skipEnds (ts : List Token) : List Token := ts.dropWhile (· == .documentEnd)

/-- The value of a document's tokens, when nothing but marks of its end follow. -/
def ofTokens? (ts : List Token) : Option Data := do
  let depth := 2 * ts.length + 2
  let (d, rest) ← match ts with
    | [] => some (.null, [])
    | .documentStart :: ts => nodeOrNull true false [.documentStart, .documentEnd] depth (ts ++ [.documentEnd])
    | ts => node true false depth ts
  guard (skipEnds rest = [])
  some d

/-- The value of a text that is one document. -/
def ofText? (t : Text) : Option Data := do ofTokens? (← Token.scan? t)

/-- The number of digits of the first whole number in a text that has too many in decimal. -/
def longNumber? (t : Text) : Option Nat :=
  let digitsOf : Token → List Nat
    | .scalar t true => if (integer? t).isSome then decimalDigits t else []
    | _ => []
  (((Token.scan? t).getD []).flatMap digitsOf).find? (· > Text.maxDigits)

/-- Read data from a text that is one document. -/
def read : Data.Reader := fun t =>
  match ofText? t, longNumber? t with
  | none, _ => .error .malformed
  | some _, some digits => .error (.raised (longNumberMessage (some digits)).toList)
  | some data, none => .ok data

end SassModules.Yaml
