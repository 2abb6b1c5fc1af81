import SassModules.Cursor.Reference

/-!
# What is being typed

The text before the cursor is classified: inside the arguments of a mixin call, behind `alias.`, or at a bare `$name`. The
first of these that applies counts. A text may end with a line feed, which does not hide what stands before it.
-/

namespace SassModules

/-- Which members to offer behind an alias. -/
inductive MemberFilter where
  | mixin
  | var
  | both
deriving DecidableEq

/-- What the text before the cursor asks for. `typed` counts the characters typed so far, a sigil included. -/
inductive Context where
  | mixinArgument (aliasName : Option Text) (mixin : Text)
  | memberAccess (aliasName : Text) (filter : MemberFilter) (typed : Nat)
  | scopeVariable (typed : Nat)
deriving DecidableEq

namespace MemberFilter

/-- Does the filter admit mixins? -/
def admitsMixins (f : MemberFilter) : Bool := f != .var

/-- Does the filter admit variables? -/
def admitsVariables (f : MemberFilter) : Bool := f != .mixin

/-- How a filter is spelt. -/
def text : MemberFilter → Text
  | .mixin => "mixin".toList
  | .var => "variable".toList
  | .both => "both".toList

end MemberFilter

namespace Pattern

/-- The end of a text, before or behind a last line feed. -/
def atEnd (s : Text) : Bool := s = [] || s = ['\n']

/-- A call whose list is still open at the end: `@include alias.mixin(` or `@include mixin(`. -/
def openCall : Pattern (Option Text × Text) := fun s => do
  let (first, s) ← word (← blanks1 (← literal "@include" s))
  let ((aliasName, mixin), s) ← match s with
    | '.' :: t => (word t).map fun r => ((some first, r.1), r.2)
    | _ => some ((none, first), s)
  let s ← literal "(" (blanks s)
  guard (!s.contains ')')
  some ((aliasName, mixin), [])

/-- A variable under way: the sigil and name characters up to the end. -/
def openVariable : Pattern Text := fun s => do
  let (name, rest) := run Text.isNameChar (← literal "$" s)
  guard (atEnd rest)
  some ('$' :: name, rest)

/-- A member under way behind an alias, with or without a sigil, up to the end. -/
def openMember : Pattern (Text × Text) := fun s => do
  let (aliasName, s) ← word s
  let s ← literal "." s
  let plain := do
    let (name, rest) := run Text.isNameChar s
    guard (atEnd rest)
    some (name, rest)
  let (typed, rest) ← openVariable s <|> plain
  some ((aliasName, typed), rest)

/-- A variable under way behind a character that separates values. -/
def separatedVariable : Pattern Text
  | c :: s => if Text.isBlank c || c == ':' || c == ',' || c == '(' then openVariable s else none
  | [] => none

/-- The keyword of a mixin call. -/
def includeKeyword : Pattern Unit := fun s => do some ((), ← blanks1 (← literal "@include" s))

/-- The name of a property and its colon. -/
def propertyName : Pattern Unit := fun s => do
  let (_, s) ← word s
  some ((), ← literal ":" (blanks s))

end Pattern

namespace Context

/-- The members to offer: variables behind a sigil, mixins in a call, variables behind a property name, else both. -/
def filterFor (before typed : Text) : MemberFilter :=
  if typed.startsWith "$" then .var
  else if Pattern.includeKeyword.occurs before then .mixin
  else if Pattern.propertyName.occurs before then .var
  else .both

/-- The arguments of a call that is still open. -/
def mixinArgument? (before : Text) : Option Context :=
  (Pattern.openCall.firstHit? before).map fun h => .mixinArgument h.value.1 h.value.2

/-- A member behind an alias. -/
def memberAccess? (before : Text) : Option Context :=
  (Pattern.openMember.firstHit? before).map fun h =>
    .memberAccess h.value.1 (filterFor before h.value.2) h.value.2.length

/-- A bare variable at the start of the text or behind a separator. -/
def scopeVariable? (before : Text) : Option Context :=
  let typed := (Pattern.openVariable before).map (·.1) <|>
    (Pattern.separatedVariable.firstHit? before).map (·.value)
  typed.map fun t => .scopeVariable t.length

/-- Classify the text before the cursor. -/
def of? (before : Text) : Option Context :=
  mixinArgument? before <|> memberAccess? before <|> scopeVariable? before

end Context

end SassModules
