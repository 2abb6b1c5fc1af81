import SassModules.Graph.Basic
import SassModules.Graph.Discovery
import SassModules.Resolution

/-!
# Building the graph of a workspace

Either every stylesheet below the root is scanned, or an entry and whatever can be reached from it. A file that cannot be
read is a module without edges. A module that loads itself gives no edge.
-/

namespace SassModules.ModuleGraph

/-- A module path in a file, how it is loaded, and the label of the edge. -/
structure Loading where
  kind : EdgeKind
  modulePath : Text
  label : Option Text

/-- What a text loads: by `@use`, then by `@forward`. -/
def loadings (content : Text) : Query (List Loading) := do
  let imports ← Session.imports content
  let reexports ← Session.reexports content
  return imports.map (fun i => ⟨.use, i.path, some i.aliasName⟩) ++ reexports.map (fun r => ⟨.forward, r.path, r.pre⟩)

/-- Add what a file loads; gives the files that it loads, too. -/
def addLoadings (w : Workspace) (file : Path) : List Loading → ModuleGraph → Query (ModuleGraph × List Path)
  | [], g => return (g, [])
  | l :: ls, g => do
    if ModulePath.isBuiltin l.modulePath then addLoadings w file ls (g.addBuiltin ⟨file, l.modulePath⟩)
    else match ← w.resolve file l.modulePath with
      | none => addLoadings w file ls (g.addMissing ⟨file, l.modulePath⟩)
      | some target =>
        if target = file then addLoadings w file ls g
        else
          let (g, targets) ← addLoadings w file ls (g.addEdge ⟨file, target, l.kind, l.label⟩)
          return (g, target :: targets)

/-- Read a module; none when its file cannot be read. -/
def readModule (file : Path) : Query (Option Text) :=
  tryCatch (some <$> Session.fileText file) fun
    | .read cause =>
      if cause.isUnreadable then do
        Session.report (.moduleSkipped file)
        return none
      else throw (.read cause)
    | fault => throw fault

/-- Add a file and what it loads; gives the files that it loads, too. -/
def addFile (w : Workspace) (file : Path) (g : ModuleGraph) : Query (ModuleGraph × List Path) := do
  let g := g.addNode file
  match ← readModule file with
  | none => return (g, [])
  | some content => addLoadings w file (← loadings content) g

/-- Add the pending files that were not scanned before, at most `fuel` of them, and with `follow` also the files that they
load. -/
def addPending (w : Workspace) (follow : Bool) : (fuel : Nat) → (scanned pending : List Path) → ModuleGraph →
    Query ModuleGraph
  | 0, _, _, _ => throw .tooDeep
  | fuel + 1, scanned, pending, g =>
    match pending.dropWhile scanned.contains with
    | [] => return g
    | file :: rest => do
      let (g, targets) ← addFile w file g
      let next := if follow then targets.filter fun t => !(file :: scanned).contains t else []
      addPending w follow fuel (file :: scanned) (rest ++ next) g

/-- How many files a scan may meet beyond those that it starts from: each file has two absolute spellings, and there is an
allowance for relative ones. -/
def scanLimit (d : Disk) : Nat := 2 * d.fileCount + 1000

/-- The graph of a workspace, from an entry or from every stylesheet below the root. -/
def build (root : Path) (entry : Option Path) (options : Discovery.Options) (includePaths : List Path) :
    Query ModuleGraph := do
  let d := (← get).disk
  let w : Workspace := ⟨(d.absolute root).normalize, includePaths⟩
  let start ← match entry with
    | some e => pure [(d.absolute e).normalize]
    | none => match Discovery.stylesheets d options w.root with
      | .ok files => pure files
      | .error cause => throw (.read cause)
  let g ← addPending w entry.isSome (start.length + scanLimit d) [] start .empty
  Session.report (.graphBuilt g.summary)
  return g

end SassModules.ModuleGraph
