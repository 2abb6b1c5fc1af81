import SassModules.CommandLine.Request
import SassModules.Definition
import SassModules.Graph.Build
import SassModules.Graph.Export
import SassModules.Report
import SassModules.Settings

/-!
# Running a request

A request ends with an exit code and with what it writes. A fault of the settings, of the file that is asked about or of
the scan is written to the error output; any other fault comes out. Writing to the output and the error output does not
fail.
-/

namespace SassModules.CommandLine

/-- How a request ended: the exit code, what was printed, and the files that were written. -/
structure Outcome where
  code : Nat
  stdout : Text
  stderr : Text
  written : List (Path × Text)

/-- A value that was given and is not empty. -/
def given? (t : Option Text) : Option Text := t.filter (· != [])

/-- A value in a message. -/
def shownOr (t : Option Text) : String := Text.str (t.getD "None".toList)

/-- The complaint about a path that has to be a directory. -/
def notDirectory (t : Option Text) : String := s!"Error: '{shownOr t}' is not a directory"

/-- The canonical form of a given path. -/
def resolve (t : Text) : Query Path := do
  match (← get).disk.resolve (Path.ofText t) with
  | .ok p => return p
  | .error cause => throw (.read cause)

/-- The canonical form of a path, or of the current directory. -/
def workspaceRoot (s : Shared) : Query Path := do
  match given? s.root with
  | some t => resolve t
  | none =>
    let d := (← get).disk
    return d.canonical d.cwd

/-! ## Tasks -/

/-- Open the file of a lookup, or complain about it. -/
def openDocument (l : Lookup) (root : Path) : Query (Except String Document) := do
  let file ← resolve l.file
  match (← get).disk.readText file with
  | .ok content => return .ok ⟨file, content, some root⟩
  | .error cause => return .error s!"Error reading '{Text.str l.file}': {cause.message}"

/-- How far each level of printed JSON is indented. -/
def jsonIndent : Option Nat := some 2

/-- Answer a request for a definition. -/
def definition (l : Lookup) (root : Path) (includePaths : List Path) : Query (Except String Text) := do
  match ← openDocument l root with
  | .error complaint => return .error complaint
  | .ok document =>
    let found ← Definition.find includePaths document ⟨l.line, l.column⟩
    let v := Viewpoint.of (← get).disk root none
    return .ok (if l.asJson then (Report.locationJson v found).render jsonIndent else Report.locationText v found)

/-- Answer a request for completions. -/
def completion (l : Lookup) (root : Path) (includePaths : List Path) : Query (Except String Text) := do
  match ← openDocument l root with
  | .error complaint => return .error complaint
  | .ok document =>
    let found ← Completion.candidates includePaths document ⟨l.line, l.column⟩
    return .ok (if l.asJson then (Report.candidatesJson found).render jsonIndent else Report.candidatesText found)

/-- The files that a survey looks for. -/
def Survey.options (s : Survey) : Discovery.Options :=
  ⟨styleExtensions, s.excluded ++ Discovery.defaultExcluded, s.maxDepth⟩

/-- Build the graph of a survey, or complain. -/
def surveyGraph (s : Survey) (root : Path) (includePaths : List Path) : Query (Except String ModuleGraph) :=
  tryCatch
    (do
      let entry ← (given? s.entry).mapM resolve
      return .ok (← ModuleGraph.build root entry s.options includePaths))
    fun fault => return .error s!"Error scanning workspace: {fault.message}"

/-- Answer a request for a graph. -/
def survey (s : Survey) (root : Path) (includePaths : List Path) : Query (Except String Text) := do
  let scanRoot ← match given? s.scanRoot with
    | some t => resolve t
    | none => pure root
  if !(← Session.askDir scanRoot) then return .error (notDirectory s.scanRoot)
  match ← surveyGraph s scanRoot includePaths with
  | .error complaint => return .error complaint
  | .ok g =>
    let v := Viewpoint.of (← get).disk scanRoot none
    let leaves : Leaves := ⟨!s.hideMissing, s.showBuiltins⟩
    return .ok (if s.asJson then (g.toJson v leaves).render jsonIndent
      else g.drawing v (if s.plainStrokes then .plain else .box) leaves)

/-- The answer of a task, or a complaint. -/
def Task.answer (root : Path) (includePaths : List Path) : Task → Query (Except String Text)
  | .definition l => CommandLine.definition l root includePaths
  | .completion l => CommandLine.completion l root includePaths
  | .graph s => survey s root includePaths

/-! ## Requests -/

/-- A line of output. -/
def line (t : Text) : Text := t ++ ['\n']

/-- A line of a message. -/
def messageLine (m : String) : Text := line m.toList

/-- An outcome that writes nothing but a complaint, behind the log. -/
def complain (log : Text) (complaint : String) : Outcome := ⟨1, [], log ++ messageLine complaint, []⟩

/-- Print an answer, or write it to a file. -/
def deliver (output : Option Text) (log answer : Text) : Query Outcome := do
  match given? output with
  | none => return ⟨0, line answer, log, []⟩
  | some t =>
    let file := Path.ofText t
    match (← get).disk.write file (line answer) with
    | .error cause => return complain log s!"Error writing output: {cause.message}"
    | .ok (route, disk) =>
      modify fun s => { s with disk := disk }
      return ⟨0, [], log ++ messageLine s!"Output written to: {file.str}", [(⟨.root, route⟩, line answer)]⟩

/-- The log lines of the events from the given number on. -/
def logFrom (start : Nat) (t : TraceLevel) : Query Text := do
  return (Event.logLines t ((← get).log.toList.drop start)).flatMap messageLine

/-- Run a request in a workspace with settings. -/
def Request.runWith (r : Request) (root : Path) (s : Settings) : Query Outcome := do
  let start := (← get).log.size
  let trace := r.shared.trace.getD s.trace
  match s.directories (← get).disk root with
  | .error fault => throw fault
  | .ok includePaths =>
    match ← r.task.answer root includePaths with
    | .error complaint => return complain (← logFrom start trace) complaint
    | .ok answer => deliver r.shared.output (← logFrom start trace) answer

/-- Run a request, given the reader of settings files. -/
def Request.run (reader : Data.Reader) (r : Request) : Query Outcome := do
  let root ← workspaceRoot r.shared
  if !(← Session.askDir root) then return complain [] (notDirectory r.shared.root)
  match Settings.load reader (← get).disk ((given? r.shared.config).map Path.ofText) (some root) with
  | .ok s => r.runWith root s
  | .error (.settings cause) => return complain [] s!"Error: {cause.message}"
  | .error fault => throw fault

/-- Run a command line, given the reader of settings files. -/
def run (reader : Data.Reader) (args : List Text) : Query (Except Refusal Outcome) :=
  match Request.ofArguments args with
  | .ok r => .ok <$> r.run reader
  | .error refusal => pure (.error refusal)

end SassModules.CommandLine
