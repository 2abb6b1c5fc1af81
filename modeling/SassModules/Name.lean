import SassModules.Text.Class

/-!
# Member names

A member is a mixin (`reset`) or a variable (`$gap`). A variable's name carries the sigil `$` in front of its bare name.
A `@forward` may put a prefix in front of the bare name; the sigil stays first, so that prefixing can be undone.
-/

namespace SassModules

/-- The kinds of member that a module can expose. -/
inductive MemberKind where
  | mixin
  | var
deriving DecidableEq

/-- How a kind is spelt in reports. -/
def MemberKind.text : MemberKind → Text
  | .mixin => "mixin".toList
  | .var => "variable".toList

namespace Name

/-- The sigil of a name, empty for a mixin. -/
def sigil : Text → Text
  | '$' :: _ => ['$']
  | _ => []

/-- The name without its sigil. -/
def bare : Text → Text
  | '$' :: n => n
  | n => n

/-- Is it the name of a variable? -/
def isVariable (n : Text) : Bool := n.startsWith "$"

/-- Names whose bare form begins with an underscore are private to their module. -/
def isPrivate (n : Text) : Bool := (bare n).startsWith "_"

/-- The name behind a `@forward` with the given prefix. -/
def addPrefix (pre : Option Text) (n : Text) : Text :=
  match pre with
  | none => n
  | some p => sigil n ++ p ++ bare n

/-- The name in front of a `@forward` with the given prefix; none when the bare name lacks the prefix. -/
def stripPrefix? (pre : Option Text) (n : Text) : Option Text :=
  match pre with
  | none => some n
  | some p => (p.isPrefixOf? (bare n)).map (sigil n ++ ·)

end Name

end SassModules
