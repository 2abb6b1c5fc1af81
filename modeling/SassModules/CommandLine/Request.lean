import SassModules.CommandLine.Arguments
import SassModules.Event
import SassModules.Text.Number

/-!
# Requests

What the command line can be asked for: the definition or the completions at a place in a file, or the graph of a
workspace.
-/

namespace SassModules.CommandLine

/-- Options of every command. -/
structure Shared where
  root : Option Text
  config : Option Text
  trace : Option TraceLevel
  output : Option Text

/-- A place in a file, and the form of the answer. -/
structure Lookup where
  file : Text
  line : Int
  column : Int
  asJson : Bool

/-- A graph to be built, and the form of its output. -/
structure Survey where
  scanRoot : Option Text
  entry : Option Text
  asJson : Bool
  plainStrokes : Bool
  excluded : List Text
  maxDepth : Option Int
  hideMissing : Bool
  showBuiltins : Bool

/-- What a command does. -/
inductive Task where
  | definition (l : Lookup)
  | completion (l : Lookup)
  | graph (s : Survey)

/-- A task with the options of every command. -/
structure Request where
  shared : Shared
  task : Task

/-- Why there is no request: the arguments are wrong, or help is asked for. -/
inductive Refusal where
  | usage
  | help
deriving DecidableEq

/-- The exit code of a refusal. -/
def Refusal.code : Refusal → Nat
  | .usage => 2
  | .help => 0

/-! ## Grammars -/

/-- The flags and operands of all commands. -/
inductive Key where
  | help
  | root
  | config
  | trace
  | output
  | format
  | file
  | line
  | column
  | scanRoot
  | entry
  | style
  | excludeDir
  | maxDepth
  | ignoreMissing
  | showBuiltins
  | command
deriving DecidableEq

/-- A flag with its names. -/
def flag (key : Key) (names : List String) (takes : Takes) : Flag Key := ⟨key, names.map String.toList, takes⟩

/-- The flag that asks for help. -/
def helpFlag : Flag Key := flag .help ["-h", "--help"] .nothing

/-- The flags of every command. -/
def sharedFlags : List (Flag Key) :=
  [helpFlag, flag .root ["--root"] .one, flag .config ["--config"] .one, flag .trace ["--trace"] .one,
   flag .output ["-o", "--output"] .one, flag .format ["-f", "--format"] .one]

/-- The arguments of a lookup. -/
def lookupGrammar : Grammar Key := ⟨sharedFlags, [⟨.file, .one⟩, ⟨.line, .one⟩, ⟨.column, .one⟩]⟩

/-- The arguments of a survey. -/
def surveyGrammar : Grammar Key :=
  ⟨sharedFlags ++ [flag .entry ["--entry"] .one, flag .style ["--ascii-style"] .one,
    flag .excludeDir ["--exclude-dir"] .several, flag .maxDepth ["--max-depth"] .one,
    flag .ignoreMissing ["--ignore-missing"] .nothing, flag .showBuiltins ["--show-builtins"] .nothing],
   [⟨.scanRoot, .atMostOne⟩]⟩

/-- The arguments in front of the command, and the command with its own arguments. -/
def commandGrammar : Grammar Key := ⟨[helpFlag], [⟨.command, .everything⟩]⟩

/-! ## Reading a request -/

/-- Which of two words a text is: false for the first, true for the second. -/
def oneOf? (no yes : String) (t : Text) : Option Bool :=
  if t = no.toList then some false else if t = yes.toList then some true else none

/-- Set an option of every command. -/
def Shared.set? (s : Shared) : Key → List Text → Option Shared
  | .root, [v] => some { s with root := some v }
  | .config, [v] => some { s with config := some v }
  | .output, [v] => some { s with output := some v }
  | .trace, [v] => (TraceLevel.ofText? v).map fun t => { s with trace := some t }
  | _, _ => none

/-- Set an option of a lookup. -/
def Lookup.set? (l : Lookup) : Key → List Text → Option Lookup
  | .file, [v] => some { l with file := v }
  | .line, [v] => (Text.readInt? v).map fun n => { l with line := n }
  | .column, [v] => (Text.readInt? v).map fun n => { l with column := n }
  | .format, [v] => (oneOf? "text" "json" v).map fun b => { l with asJson := b }
  | _, _ => none

/-- Set an option of a survey. -/
def Survey.set? (s : Survey) : Key → List Text → Option Survey
  | .scanRoot, [] => some s
  | .scanRoot, [v] => some { s with scanRoot := some v }
  | .entry, [v] => some { s with entry := some v }
  | .format, [v] => (oneOf? "ascii" "json" v).map fun b => { s with asJson := b }
  | .style, [v] => (oneOf? "tree" "ascii" v).map fun b => { s with plainStrokes := b }
  | .excludeDir, vs => some { s with excluded := vs }
  | .maxDepth, [v] => (Text.readInt? v).map fun n => { s with maxDepth := some n }
  | .ignoreMissing, _ => some { s with hideMissing := true }
  | .showBuiltins, _ => some { s with showBuiltins := true }
  | _, _ => none

/-- Take the steps one after the other until help is asked for or one is wrong. -/
def follow {β : Type} (set? : β → Key → List Text → Except Refusal β) : β → List (Step Key) → Except Refusal β
  | b, [] => .ok b
  | b, .stray :: ss => follow set? b ss
  | _, .bad :: _ => .error .usage
  | b, .use k vs :: ss => if k = .help then .error .help else (set? b k vs).bind fun b => follow set? b ss

/-- Set an option of a command or of every command. -/
def setEither {β : Type} (set? : β → Key → List Text → Option β) (s : Shared × β) (k : Key) (vs : List Text) :
    Except Refusal (Shared × β) :=
  match s.1.set? k vs, set? s.2 k vs with
  | some shared, _ => .ok (shared, s.2)
  | none, some own => .ok (s.1, own)
  | none, none => .error .usage

/-- No options. -/
def Shared.default : Shared := ⟨none, none, none, none⟩

/-- The request of a lookup command's arguments. -/
def lookupOf (task : Lookup → Task) (args : List Text) : Except Refusal Request := do
  let (shared, l) ← follow (setEither Lookup.set?) (.default, ⟨[], 0, 0, false⟩) (lookupGrammar.steps args)
  .ok ⟨shared, task l⟩

/-- The request of the survey command's arguments. -/
def surveyOf (args : List Text) : Except Refusal Request := do
  let (shared, s) ← follow (setEither Survey.set?) (.default, ⟨none, none, false, false, [], none, false, false⟩)
    (surveyGrammar.steps args)
  .ok ⟨shared, .graph s⟩

/-- The request of a command with its arguments. -/
def commandOf (name : Text) (args : List Text) : Except Refusal Request :=
  if name = "definition".toList then lookupOf .definition args
  else if name = "complete".toList then lookupOf .completion args
  else if name = "graph".toList then surveyOf args
  else .error .usage

/-- The request of a command line. -/
def Request.ofArguments (args : List Text) : Except Refusal Request := do
  let set? (_ : Option Request) (_ : Key) (vs : List Text) : Except Refusal (Option Request) :=
    match vs with
    | name :: args => (commandOf name args).map some
    | [] => .error .usage
  match ← follow set? none (commandGrammar.steps args) with
  | some r => .ok r
  | none => .error .usage

end SassModules.CommandLine
