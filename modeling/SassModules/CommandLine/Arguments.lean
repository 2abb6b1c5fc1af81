import SassModules.Text.Class

/-!
# Arguments

A grammar names the flags and the operands of a command. Its arguments are read from left to right into steps, each the
use of a flag or an operand with its values. A long flag may be shortened as long as no other one starts alike, its value
may stand behind `=`, and the value of a short flag may follow it directly. Behind `--` everything is an operand. A
negative number is an operand too.
-/

namespace SassModules.CommandLine

/-- How many values a flag takes. -/
inductive Takes where
  | nothing
  | one
  | several
deriving DecidableEq

/-- A flag with its names; a short name has one hyphen and one letter, a long one starts with two hyphens. -/
structure Flag (α : Type) where
  key : α
  names : List Text
  takes : Takes

/-- What an operand stands for: one argument, at most one, or all arguments that are left. -/
inductive Extent where
  | one
  | atMostOne
  | everything
deriving DecidableEq

/-- An operand. -/
structure Operand (α : Type) where
  key : α
  extent : Extent

/-- The flags of a command and its operands in their order; one that may be left out is the last. -/
structure Grammar (α : Type) where
  flags : List (Flag α)
  operands : List (Operand α)

/-- An argument by its form. The first `--` is the separator. -/
inductive Word (α : Type) where
  | operand (t : Text)
  | separator
  | short (t : Text) (flag : Flag α) (rest : Text)
  | long (t : Text) (flag : Flag α) (value : Option Text)
  | unknown (t : Text)
  | ambiguous (t : Text)

/-- What an argument asks for. A stray argument makes the whole line wrong, but only after all that can be used is used;
a bad one ends it at once. -/
inductive Step (α : Type) where
  | use (key : α) (values : List Text)
  | stray
  | bad

/-! ## Words -/

/-- The argument behind which everything is an operand. -/
def separatorText : Text := ['-', '-']

namespace Word

variable {α : Type}

/-- The argument as it was given. -/
def text : Word α → Text
  | .operand t => t
  | .separator => separatorText
  | .short t _ _ => t
  | .long t _ _ => t
  | .unknown t => t
  | .ambiguous t => t

/-- Is the argument the separator? -/
def isSeparator : Word α → Bool
  | .separator => true
  | _ => false

/-- Is the argument neither a flag nor meant to be one? -/
def isPlain : Word α → Bool
  | .operand _ => true
  | .separator => true
  | _ => false

/-- Could the argument be several flags? -/
def isAmbiguous : Word α → Bool
  | .ambiguous _ => true
  | _ => false

end Word

/-- Is the text a negative number, whole or with a point? -/
def isNegativeNumber : Text → Bool
  | '-' :: t =>
    let t := if t.getLast? = some '\n' then t.dropLast else t
    let isDigit c := (Text.digitValue? c).isSome
    let whole := t.takeWhile isDigit
    match t.drop whole.length with
    | [] => whole != []
    | '.' :: places => places != [] && places.all isDigit
    | _ => false
  | _ => false

namespace Grammar

variable {α : Type}

/-- The flag of a name. -/
def flag? (g : Grammar α) (name : Text) : Option (Flag α) := g.flags.find? (·.names.contains name)

/-- The flags with a name that starts with a text, one for each such name. -/
def completions (g : Grammar α) (start : Text) : List (Flag α) :=
  g.flags.flatMap fun f => (f.names.filter start.isPrefixOf).map fun _ => f

/-- An argument that starts with a hyphen and names no flag. -/
def unnamed (arg : Text) : Word α :=
  if isNegativeNumber arg || arg.contains ' ' then .operand arg else .unknown arg

/-- The form of a long flag, or the start of one, and of its value. -/
def longWord (g : Grammar α) (arg : Text) : Word α :=
  let name := arg.takeWhile (· != '=')
  let value := if name.length < arg.length then some (arg.drop (name.length + 1)) else none
  match g.flag? name, g.completions name with
  | some f, _ => .long arg f value
  | none, [f] => .long arg f value
  | none, [] => unnamed arg
  | none, _ => .ambiguous arg

/-- The form of an argument other than the separator. -/
def word (g : Grammar α) : Text → Word α
  | '-' :: '-' :: t => g.longWord ('-' :: '-' :: t)
  | '-' :: c :: t => match g.flag? ['-', c] with
    | some f => .short ('-' :: c :: t) f t
    | none => unnamed ('-' :: c :: t)
  | t => .operand t

/-- The forms of all arguments. -/
def words (g : Grammar α) : List Text → List (Word α)
  | [] => []
  | t :: ts => if t = separatorText then .separator :: ts.map .operand else g.word t :: g.words ts

/-! ## Flags -/

/-- The values of a flag from the arguments that follow it, and the arguments left. -/
def following : Takes → List (Word α) → Option (List Text × List (Word α))
  | .nothing, ws => some ([], ws)
  | .one, .operand t :: ws => some ([t], ws)
  | .one, _ => none
  | .several, ws =>
    let values := (ws.map fun w => match w with
      | .operand t => some t
      | _ => none).takeWhile Option.isSome
    if values.isEmpty then none else some (values.filterMap id, ws.drop values.length)

/-- The uses of a long flag, and the arguments left. -/
def useLong (f : Flag α) (value : Option Text) (ws : List (Word α)) : Option (List (Step α) × List (Word α)) :=
  match value, f.takes with
  | none, takes => (following takes ws).map fun r => ([.use f.key r.1], r.2)
  | some _, .nothing => none
  | some v, _ => some ([.use f.key [v]], ws)

/-- The uses of a short flag with what follows it directly: its value, or further short flags. -/
def useShort (g : Grammar α) : (rest : Text) → Flag α → List (Word α) → Option (List (Step α) × List (Word α))
  | [], f, ws => useLong f none ws
  | c :: rest, f, ws =>
    if c = '=' then useLong f (some rest) ws
    else if f.takes ≠ .nothing then some ([.use f.key [c :: rest]], ws)
    else if c = '-' then none
    else match g.flag? ['-', c] with
      | none => some ([.use f.key [], .stray], ws)
      | some next => (g.useShort rest next ws).map fun r => (.use f.key [] :: r.1, r.2)

/-! ## Operands -/

/-- The arguments that an operand stands for, and those left. -/
def operandSpan (extent : Extent) (ws : List (Word α)) : Option (List (Word α) × List (Word α)) :=
  let before := ws.takeWhile Word.isSeparator
  match extent, ws.dropWhile Word.isSeparator with
  | .everything, .operand _ :: _ => some (ws, [])
  | .everything, _ => none
  | _, .operand t :: rest =>
    some (before ++ .operand t :: rest.takeWhile Word.isSeparator, rest.dropWhile Word.isSeparator)
  | .atMostOne, rest => some (before, rest)
  | .one, _ => none

/-- The values of an operand; a separator is not one of them. -/
def operandValues (extent : Extent) (ws : List (Word α)) : List Text :=
  if extent = .everything then ws.map Word.text else (ws.map Word.text).erase separatorText

/-- Use as many operands as possible; the operands and the arguments left. -/
def useOperands : List (Operand α) → List (Word α) → List (Step α) × List (Operand α) × List (Word α)
  | [], ws => ([], [], ws)
  | o :: os, ws =>
    match operandSpan o.extent ws with
    | none => ([], o :: os, ws)
    | some (mine, rest) =>
      let (steps, os, ws) := useOperands os rest
      (.use o.key (operandValues o.extent mine) :: steps, os, ws)

/-! ## Steps -/

/-- The steps of the arguments left, given the operands left. Every round uses up an argument. -/
def walk (g : Grammar α) : (fuel : Nat) → List (Operand α) → List (Word α) → List (Step α)
  | 0, _, _ => [.bad]
  | _ + 1, os, [] =>
    let (steps, left, _) := useOperands os []
    steps ++ if left.isEmpty then [] else [.bad]
  | fuel + 1, os, w :: ws =>
    match w with
    | .short _ f rest => match g.useShort rest f ws with
      | some (steps, ws) => steps ++ g.walk fuel os ws
      | none => [.bad]
    | .long _ f value => match useLong f value ws with
      | some (steps, ws) => steps ++ g.walk fuel os ws
      | none => [.bad]
    | .unknown _ => .stray :: g.walk fuel os ws
    | .ambiguous _ => [.bad]
    | w =>
      let (steps, os, rest) := useOperands os (w :: ws)
      if rest.length ≤ ws.length then steps ++ g.walk fuel os rest
      else .stray :: g.walk fuel os (ws.dropWhile Word.isPlain)

/-- Does the step mark a stray argument? -/
def isStray : Step α → Bool
  | .stray => true
  | _ => false

/-- The steps of all arguments. An argument that could be several flags is found before any is used. -/
def steps (g : Grammar α) (args : List Text) : List (Step α) :=
  let ws := g.words args
  if ws.any Word.isAmbiguous then [.bad]
  else
    let found := g.walk (ws.length + 1) g.operands ws
    if found.any isStray then found ++ [.bad] else found

end Grammar

end SassModules.CommandLine
