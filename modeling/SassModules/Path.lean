import SassModules.Text.Basic

/-!
# Paths

A path is an anchor and a list of names. Reading one drops `.` and empty names and keeps `..`; only `normalize` collapses
`..`, without asking a disk. Two leading slashes are an anchor of their own, three or more count as one. Paths are ordered
by their components, the anchor first, each component by code points.
-/

namespace SassModules

/-- Where a path starts: nowhere (relative), at `/`, or at `//`. -/
inductive Anchor where
  | relative
  | root
  | doubleRoot
deriving DecidableEq

/-- How many slashes an anchor is written with. -/
def Anchor.slashes : Anchor → Nat
  | .relative => 0
  | .root => 1
  | .doubleRoot => 2

/-- The slashes an anchor is written with. -/
def Anchor.text (a : Anchor) : Text := List.replicate a.slashes '/'

/-- A path: an anchor and the names below it. -/
structure Path where
  anchor : Anchor
  names : List Text
deriving DecidableEq

namespace Path

/-- The anchor that a number of leading slashes stands for. -/
def anchorOf : Nat → Anchor
  | 0 => .relative
  | 2 => .doubleRoot
  | _ => .root

/-- Read a path: empty names and `.` are dropped. -/
def ofText (t : Text) : Path where
  anchor := anchorOf (t.takeWhile (· == '/')).length
  names := (t.splitOn '/').filter fun n => n != [] && n != ['.']

/-- Write a path; the empty relative path is written `.`. -/
def text (p : Path) : Text :=
  if p.anchor = .relative ∧ p.names = [] then ['.'] else p.anchor.text ++ Text.join "/" p.names

/-- A path as a string, for messages. -/
abbrev str (p : Path) : String := Text.str p.text

/-- A path with an anchor does not depend on the current directory. -/
def isAbsolute (p : Path) : Bool := p.anchor != .relative

/-- The path without its last name; a path without names is its own parent. -/
def parent (p : Path) : Path := { p with names := p.names.dropLast }

/-- The last name, empty when there is none. -/
def name (p : Path) : Text := p.names.getLast?.getD []

/-- A path with one more name below it. -/
def child (p : Path) (n : Text) : Path := { p with names := p.names ++ [n] }

/-- The second path seen from the first; an absolute one stands for itself. -/
def join (p q : Path) : Path := if q.isAbsolute then q else { p with names := p.names ++ q.names }

/-- A sibling that differs in the last name. -/
def withName (p : Path) (f : Text → Text) : Path := p.parent.child (f p.name)

/-- One step of collapsing `..`, with the names kept so far in reverse: it undoes a name, is dropped at the root, and
stays at the front of a relative path. -/
def collapseStep (anchor : Anchor) (kept : List Text) (n : Text) : List Text :=
  if n = ['.', '.'] then
    match kept with
    | [] => if anchor = .relative then [n] else []
    | k :: ks => if k = ['.', '.'] then n :: k :: ks else ks
  else n :: kept

/-- The path with every `..` collapsed against the name before it. -/
def normalize (p : Path) : Path :=
  { p with names := (p.names.foldl (collapseStep p.anchor) []).reverse }

/-- The path and its ancestors, nearest first, down to the bare anchor. -/
def ancestors (p : Path) : List Path :=
  (List.range (p.names.length + 1)).map fun k => { p with names := p.names.take (p.names.length - k) }

/-- The names of a path with the anchor, if any, as the first component. -/
def components (p : Path) : List Text := if p.anchor = .relative then p.names else p.anchor.text :: p.names

instance : Ord Path where
  compare p q := (compare p.components q.components).then (compare p.anchor.slashes q.anchor.slashes)

/-- Paths in component order. -/
def le (p q : Path) : Bool := (compare p q).isLE

/-- The part of the last name from its last dot on; empty when that dot is its first or last character. -/
def suffix (p : Path) : Text :=
  let tail := (p.name.reverse.takeWhile (· != '.')).reverse
  if tail = [] ∨ p.name.length < tail.length + 2 then [] else '.' :: tail

/-- The names of `p` below `base`, when `base` is an initial part of it with the same anchor. -/
def below? (p base : Path) : Option Path :=
  if p.anchor = base.anchor then (base.names.isPrefixOf? p.names).map fun ns => ⟨.relative, ns⟩ else none

/-- Does a character that no file name can hold occur in the path? -/
def hasNull (p : Path) : Bool := p.names.any (·.contains (Char.ofNat 0))

end Path

end SassModules
