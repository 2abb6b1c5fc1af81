import SassModules.Declaration
import SassModules.Disk
import SassModules.Text.Lower

/-!
# Discovering stylesheets

The stylesheets below a directory, in path order. Directories can be left out by name or by the end of their name, and
below a depth; a directory that cannot be listed counts as empty. Where asking what stands at a name is a fault, the search
ends with it.
-/

namespace SassModules.Discovery

/-- What to look for: file endings, directories to leave out, and how deep to go. -/
structure Options where
  extensions : List Text
  excluded : List Text
  maxDepth : Option Int

/-- The directories that are left out unless others are named. -/
def defaultExcluded : List Text :=
  [".git", ".hg", ".svn", "node_modules", ".sass-cache", "venv", ".venv", ".idea", ".vscode", "build", "dist",
   "*.egg-info"].map String.toList

/-- Is a directory left out? An entry that starts with a star leaves out the names that end with what follows the
stars. -/
def isExcluded (o : Options) (name : Text) : Bool :=
  o.excluded.contains name || o.excluded.any fun pat => pat.startsWith "*" && name.endsWith (pat.dropWhile (· == '*'))

/-- Does a file have one of the endings? -/
def isWanted (o : Options) (p : Path) : Bool := o.extensions.contains (Text.lower p.suffix)

/-- Is the depth past the limit? -/
def isTooDeep (o : Options) (depth : Nat) : Bool := o.maxDepth.any fun limit => limit < (depth : Int)

/-- The names in a directory; none when it cannot be listed. -/
def namesIn (d : Disk) (dir : Path) : Except ReadFault (List Text) :=
  match d.list dir with
  | .error (.denied _) => .ok []
  | other => other

/-- The wanted files at a name of a directory, given the search below a directory. -/
def visit (d : Disk) (o : Options) (next : Path → Except ReadFault (List Path)) (dir : Path) (name : Text) :
    Except ReadFault (List Path) := do
  let p := dir.child name
  if ← d.askDir p then
    if isExcluded o name then return []
    next p
  else if (← d.askFile p) && isWanted o p then return [p]
  else return []

/-- The wanted files below a directory, at most `height` levels down. -/
def below (d : Disk) (o : Options) : (height depth : Nat) → Path → Except ReadFault (List Path)
  | 0, _, _ => .ok []
  | height + 1, depth, dir => do
    if isTooDeep o depth then return []
    let found ← (← namesIn d dir).mapM (visit d o (below d o height (depth + 1)) dir)
    return found.flatten

/-- One more than the length of the longest route. -/
def height (d : Disk) : Nat := d.entries.foldl (fun n e => max n e.1.length) 0 + 1

/-- The stylesheets below a directory. -/
def stylesheets (d : Disk) (o : Options) (root : Path) : Except ReadFault (List Path) := below d o (height d) 0 root

end SassModules.Discovery
