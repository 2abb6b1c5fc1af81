import SassModules.Text.Pattern

/-!
# Parameter lists

A parameter list is the text between a parenthesis and its partner, over as many lines as it takes and without `//`
comments. It is cut at its top-level commas; each piece `$name`, `$name...` or `$name: default` is a parameter, and the
position of a parameter is the first place where its name stands from the definition on.
-/

namespace SassModules

/-- A declared parameter. The name carries no sigil; line and column count from zero. -/
structure Parameter where
  name : Text
  default : Option Text
  line : Nat
  column : Nat
deriving DecidableEq

namespace Parameter

/-- A parameter as it is written in a list: `$name`, or `$name: default`. -/
def signature (p : Parameter) : Text :=
  match p.default with
  | some (c :: d) => '$' :: p.name ++ ": ".toList ++ c :: d
  | _ => '$' :: p.name

/-- Parameters as a list, separated by a comma and a blank. -/
def signatures (ps : List Parameter) : Text := Text.join ", " (ps.map signature)

/-! ## The text of the list -/

/-- Cut a `//` comment off, given the character before the text: the slashes count at the start of a line and after white
space, a comma or an opening parenthesis, so that `url(http://host)` holds none. -/
def dropCommentAfter (before : Option Char) : Text → Text
  | [] => []
  | c :: s =>
    if "//".toList.isPrefixOf (c :: s) && before.all (fun b => Text.isBlank b || b == ',' || b == '(') then []
    else c :: dropCommentAfter (some c) s

/-- The line without a `//` comment at its end. -/
def dropComment (line : Text) : Text := dropCommentAfter none line

/-- What is captured from a text, given how many parentheses are open: everything but the first opening parenthesis, up to
the closing one that leaves none open. -/
def capture : Int → Text → Option Text
  | _, [] => none
  | depth, c :: s =>
    if c = '(' then
      if depth = 0 then capture 1 s else (capture (depth + 1) s).map (c :: ·)
    else if c = ')' then
      if depth = 1 then some [] else (capture (depth - 1) s).map (c :: ·)
    else (capture depth s).map (c :: ·)

/-- The lines from a position on, without comments, as one text. -/
def textFrom (lines : List Text) (line column : Nat) : Text :=
  match lines.drop line with
  | [] => []
  | first :: rest => Text.join "\n" ((first.drop column :: rest).map dropComment)

/-- The text of the list whose parenthesis stands at a position; none when it is not closed. -/
def listText? (lines : List Text) (line column : Nat) : Option Text := capture 0 (textFrom lines line column)

/-! ## Its pieces -/

/-- The pieces between commas, given how many brackets are open. -/
def pieces : Int → Text → List Text
  | _, [] => [[]]
  | depth, c :: s =>
    if c = '(' ∨ c = '{' then (pieces (depth + 1) s).modifyHead (c :: ·)
    else if c = ')' ∨ c = '}' then (pieces (depth - 1) s).modifyHead (c :: ·)
    else if c = ',' ∧ depth = 0 then [] :: pieces depth s
    else (pieces depth s).modifyHead (c :: ·)

/-- The pieces of a list; a blank one after the last comma does not count. -/
def topLevel (t : Text) : List Text :=
  let ps := pieces 0 t
  if (ps.getLast?.getD []).trim = [] then ps.dropLast else ps

/-- Read one piece: a name and a default that is not blank. -/
def readPiece (piece : Text) : Option (Text × Option Text) := do
  let (name, s) ← Pattern.word (← Pattern.literal "$" piece.trim)
  let s := Pattern.blanks ((Pattern.literal "..." s).getD s)
  match s with
  | [] => some (name, none)
  | c :: s =>
    guard (c == ':')
    let default := Text.trim s
    some (name, if default = [] then none else some default)

/-- The parameters a list names, each name once. -/
def distinct : List Text → List (Text × Option Text) → List (Text × Option Text)
  | _, [] => []
  | seen, p :: ps => if p.1 ∈ seen then distinct seen ps else p :: distinct (p.1 :: seen) ps

/-! ## Positions -/

/-- A mention of `$name` where the name ends. -/
def mention (name : Text) : Pattern Unit := fun s => do
  let rest ← ('$' :: name).isPrefixOf? s
  guard (!rest.head?.any Text.isNameChar)
  some ((), rest)

/-- How many lines below its definition a parameter is looked for. -/
def searchDepth : Nat := 10

/-- The first mention of a name in the given lines, the first of them from a column on. -/
def locateIn (name : Text) : (line column : Nat) → List Text → Option (Nat × Nat)
  | _, _, [] => none
  | line, column, l :: ls =>
    match (mention name).firstHitFrom? column ((dropComment l).drop column) with
    | some h => some (line, h.start)
    | none => locateIn name (line + 1) 0 ls

/-- The position of a parameter: its first mention near the definition, else the definition itself. -/
def locate (lines : List Text) (name : Text) (line column : Nat) : Nat × Nat :=
  (locateIn name line column ((lines.drop line).take (searchDepth + 1))).getD (line, column)

/-- The parameters of the list whose parenthesis stands at a position, for a definition that starts at `column` of the
same line; none when the list is not closed. -/
def readList? (lines : List Text) (line paren column : Nat) : Option (List Parameter) :=
  (listText? lines line paren).map fun t =>
    (distinct [] ((topLevel t).filterMap readPiece)).map fun p =>
      let at_ := locate lines p.1 line column
      ⟨p.1, p.2, at_.1, at_.2⟩

end Parameter

end SassModules
