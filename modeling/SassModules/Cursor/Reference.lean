import SassModules.Text.Pattern

/-!
# What the cursor points at

`Reference.at?` finds the token `alias.member` that the cursor touches: the maximal run of token characters around it.
`Argument.at?` finds a `$name` in the argument list of `@include alias.mixin(...)`. A cursor stands between characters,
and a token is touched from its first to behind its last character.
-/

namespace SassModules

/-- The half of a reference that the cursor is on. -/
inductive Target where
  | namespacePart
  | memberPart
deriving DecidableEq

/-- A token `alias.member` and the columns that it spans. -/
structure Reference where
  aliasName : Text
  member : Text
  target : Target
  start : Nat
  stop : Nat
deriving DecidableEq

/-- An argument `$name` in a call of `alias.mixin`. -/
structure Argument where
  aliasName : Text
  mixin : Text
  name : Text
deriving DecidableEq

namespace Reference

/-- The token as it is written. -/
def text (r : Reference) : Text := r.aliasName ++ '.' :: r.member

/-- A character that belongs to a token: of a name, a sigil or a dot. -/
def isTokenChar (c : Char) : Bool := c == '$' || c == '.' || Text.isNameChar c

/-- Is the text a name? -/
def isName (t : Text) : Bool := !t.isEmpty && t.all Text.isNameChar

/-- Is the text a name with or without a sigil? -/
def isMemberName : Text → Bool
  | '$' :: t => isName t
  | t => isName t

/-- The alias and the member of a token, cut at its first dot. -/
def split? (token : Text) : Option (Text × Text) :=
  match Pattern.run (· != '.') token with
  | (aliasName, _ :: member) => if isName aliasName && isMemberName member then some (aliasName, member) else none
  | (_, []) => none

/-- The token around a column: its characters before the column and those from it on. -/
def tokenAround (line : Text) (column : Nat) : Text × Text :=
  (((line.take column).reverse.takeWhile isTokenChar).reverse, (line.drop column).takeWhile isTokenChar)

/-- The reference that a cursor touches. -/
def at? (line : Text) (character : Int) : Option Reference := do
  guard (0 ≤ character && character ≤ line.length)
  let column := character.toNat
  let (before, behind) := tokenAround line column
  let (aliasName, member) ← split? (before ++ behind)
  let target := if before.length ≤ aliasName.length then .namespacePart else .memberPart
  some ⟨aliasName, member, target, column - before.length, column + behind.length⟩

end Reference

/-! ## Arguments of a call -/

/-- The column of the parenthesis that leaves none open, given the count of open ones and the column of the text. -/
def closingFrom : Int → Nat → Text → Option Nat
  | _, _, [] => none
  | depth, column, c :: s =>
    if c = '(' then closingFrom (depth + 1) (column + 1) s
    else if c = ')' then if depth = 1 then some column else closingFrom (depth - 1) (column + 1) s
    else closingFrom depth (column + 1) s

/-- The column of the parenthesis that closes the one at a column. -/
def closing? (line : Text) (start : Nat) : Option Nat := closingFrom 0 start (line.drop start)

/-- The head of a call, `@include alias.mixin(`. -/
def Pattern.includeCall : Pattern (Text × Text) := fun s => do
  let (aliasName, s) ← word (← blanks1 (← literal "@include" s))
  let (mixin, s) ← word (← literal "." s)
  let s ← literal "(" (blanks s)
  some ((aliasName, mixin), s)

/-- A variable name with its sigil; gives the bare name. -/
def Pattern.dollarName : Pattern Text := fun s => do word (← literal "$" s)

namespace Argument

/-- The argument names of a list: variables that are not the member of a reference. -/
def namesIn (arguments : Text) : List (Hit Text) :=
  (Pattern.dollarName.hits arguments).filter fun h =>
    h.start = 0 || !(arguments[h.start - 1]?).any Reference.isTokenChar

/-- The argument that a cursor touches. -/
def at? (line : Text) (character : Int) : Option Argument :=
  (Pattern.includeCall.hits line).findSome? fun call => do
    let opening := call.stop - 1
    let closing ← closing? line opening
    guard (opening < character && character < closing)
    let column := character.toNat - opening - 1
    let h ← (namesIn ((line.drop (opening + 1)).take (closing - opening - 1))).find? fun h =>
      h.start ≤ column && column ≤ h.stop
    some ⟨call.value.1, call.value.2, h.value⟩

end Argument

end SassModules
