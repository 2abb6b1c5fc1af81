import SassModules.Text.Number

/-!
# UTF-8

Strict decoding: overlong forms, surrogates and code points past the last one are refused where the first byte that rules
them out stands. `Malformed` says which bytes were refused and why. A decoded text has its line ends brought to the line
feed.
-/

namespace SassModules.Utf8

/-- Why some bytes are no character. -/
inductive Reason where
  | start
  | continuation
  | ending
deriving DecidableEq

/-- The refused bytes: the first of them, where it stands, how many there are, and why they were refused. -/
structure Malformed where
  byte : UInt8
  position : Nat
  count : Nat
  reason : Reason
deriving DecidableEq

/-- The wording of a reason. -/
def Reason.message : Reason → String
  | .start => "invalid start byte"
  | .continuation => "invalid continuation byte"
  | .ending => "unexpected end of data"

/-- The wording of a refusal. -/
def Malformed.message (m : Malformed) : String :=
  let what :=
    if m.count = 1 then
      s!"byte 0x{Text.str (Text.hexDigits 2 m.byte.toNat)} in position {m.position}"
    else s!"bytes in position {m.position}-{m.position + m.count - 1}"
  s!"'utf-8' codec can't decode {what}: {m.reason.message}"

/-- A character under way: what its bytes give so far, how many are missing, and the bounds of the next one. -/
structure Pending where
  byte : UInt8
  position : Nat
  count : Nat
  value : Nat
  missing : Nat
  low : Nat
  high : Nat

/-- What a first byte begins: how many bytes follow and the bounds of the next one; none when it begins nothing. -/
def follow? (b : Nat) : Option (Nat × Nat × Nat) :=
  if 0xC2 ≤ b ∧ b ≤ 0xDF then some (1, 0x80, 0xBF)
  else if b = 0xE0 then some (2, 0xA0, 0xBF)
  else if b = 0xED then some (2, 0x80, 0x9F)
  else if 0xE1 ≤ b ∧ b ≤ 0xEF then some (2, 0x80, 0xBF)
  else if b = 0xF0 then some (3, 0x90, 0xBF)
  else if 0xF1 ≤ b ∧ b ≤ 0xF3 then some (3, 0x80, 0xBF)
  else if b = 0xF4 then some (3, 0x80, 0x8F)
  else none

/-- The bits of a first byte that belong to the code point, by the number of bytes that follow. -/
def leadBits (following b : Nat) : Nat := b % Nat.pow 2 (6 - following)

/-- Decode bytes from a position on, with a character that may be under way. -/
def decodeFrom : (position : Nat) → Option Pending → List UInt8 → Except Malformed Text
  | _, none, [] => .ok []
  | _, some p, [] => .error ⟨p.byte, p.position, p.count, .ending⟩
  | position, none, b :: bs =>
    if b.toNat < 0x80 then (decodeFrom (position + 1) none bs).map (Char.ofNat b.toNat :: ·)
    else match follow? b.toNat with
      | none => .error ⟨b, position, 1, .start⟩
      | some (missing, low, high) =>
        decodeFrom (position + 1) (some ⟨b, position, 1, leadBits missing b.toNat, missing, low, high⟩) bs
  | position, some p, b :: bs =>
    if p.low ≤ b.toNat ∧ b.toNat ≤ p.high then
      let value := 64 * p.value + b.toNat % 64
      if p.missing ≤ 1 then (decodeFrom (position + 1) none bs).map (Char.ofNat value :: ·)
      else decodeFrom (position + 1) (some ⟨p.byte, p.position, p.count + 1, value, p.missing - 1, 0x80, 0xBF⟩) bs
    else .error ⟨p.byte, p.position, p.count, .continuation⟩

/-- Decode a whole file. -/
def decode (bytes : List UInt8) : Except Malformed Text := decodeFrom 0 none bytes

/-- The bytes of a text. -/
def encode (t : Text) : List UInt8 := t.flatMap String.utf8EncodeChar

/-- Bring every line end to the line feed; `afterReturn` says whether a carriage return stands before the text. -/
def unifyLineEnds : (afterReturn : Bool) → Text → Text
  | _, [] => []
  | true, '\n' :: t => unifyLineEnds false t
  | _, '\r' :: t => '\n' :: unifyLineEnds true t
  | _, c :: t => c :: unifyLineEnds false t

end SassModules.Utf8
