import SassModules.Text.Class

/-!
# Patterns

A pattern recognises one form at the head of a text and gives what it read together with the rest. `hits` lists the
non-overlapping matches of a pattern from left to right, each with the column where it starts; `firstHit?` is the
leftmost. Every form here is deterministic: the classes of neighbouring parts are disjoint, so reading each part as far
as it goes loses no match.
-/

namespace SassModules

/-- What a pattern reads at the head of a text, and the text after it. -/
abbrev Pattern (α : Type) := Text → Option (α × Text)

/-- A match in a text: its first column, its length and what was read. -/
structure Hit (α : Type) where
  start : Nat
  length : Nat
  value : α
deriving DecidableEq, Repr

namespace Hit

variable {α : Type}

/-- The column after the last matched character. -/
def stop (h : Hit α) : Nat := h.start + h.length

end Hit

namespace Pattern

variable {α : Type}

/-- The given characters, exactly. -/
def literal (w : String) (s : Text) : Option Text := w.toList.isPrefixOf? s

/-- The longest head in a class. -/
def run (p : Char → Bool) (s : Text) : Text × Text := (s.takeWhile p, s.dropWhile p)

/-- The longest head in a class, if it is not empty. -/
def run1 (p : Char → Bool) : Pattern Text := fun s =>
  match s.takeWhile p with
  | [] => none
  | c :: w => some (c :: w, s.dropWhile p)

/-- White space, at least one character. -/
def blanks1 (s : Text) : Option Text := (run1 Text.isBlank s).map (·.2)

/-- White space, possibly none. -/
abbrev blanks (s : Text) : Text := Text.trimStart s

/-- A member name, an alias or a prefix. -/
def word : Pattern Text := run1 Text.isNameChar

/-- Matches from a column on, after skipping the characters an earlier match has used. -/
def hitsFrom (pat : Pattern α) : (skip column : Nat) → Text → List (Hit α)
  | _, _, [] => []
  | skip + 1, column, _ :: s => hitsFrom pat skip (column + 1) s
  | 0, column, c :: s =>
    match pat (c :: s) with
    | none => hitsFrom pat 0 (column + 1) s
    | some (value, rest) =>
      let length := s.length + 1 - rest.length
      ⟨column, length, value⟩ :: hitsFrom pat (length - 1) (column + 1) s

/-- All non-overlapping matches, from left to right. -/
def hits (pat : Pattern α) (s : Text) : List (Hit α) := hitsFrom pat 0 0 s

/-- The leftmost match from a column on. -/
def firstHitFrom? (pat : Pattern α) : (column : Nat) → Text → Option (Hit α)
  | _, [] => none
  | column, c :: s =>
    match pat (c :: s) with
    | none => firstHitFrom? pat (column + 1) s
    | some (value, rest) => some ⟨column, s.length + 1 - rest.length, value⟩

/-- The leftmost match. -/
def firstHit? (pat : Pattern α) (s : Text) : Option (Hit α) := firstHitFrom? pat 0 s

/-- Does the pattern match anywhere? -/
def occurs (pat : Pattern α) (s : Text) : Bool := (firstHit? pat s).isSome

end Pattern

end SassModules
