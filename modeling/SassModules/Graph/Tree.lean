import SassModules.Graph.Basic
import SassModules.Graph.Display

/-!
# Graphs as trees

A graph is unrolled from its roots; a module that is open further up the same branch is marked and not unrolled again. A
graph without roots is unrolled from every module that loads something, or else from every module. `Branch.lines` draws
the unrolled graph, one line for each module and leaf.
-/

namespace SassModules

/-- A line of the tree and what hangs below it. `load` says how a module is loaded; a root has none. -/
inductive Branch where
  | module (path : Path) (load : Option Text) (isCycle : Bool) (items : List Branch)
  | leaf (text : Text)

/-- The strokes of a drawing. -/
structure Strokes where
  branch : Text
  last : Text
  vertical : Text
  space : Text

namespace Strokes

/-- Box drawing characters. -/
def box : Strokes := ⟨"├── ".toList, "└── ".toList, "│   ".toList, "    ".toList⟩

/-- ASCII characters. -/
def plain : Strokes := ⟨"|-- ".toList, "\\-- ".toList, "|   ".toList, "    ".toList⟩

/-- The stroke in front of an item. -/
def connector (s : Strokes) (isLast : Bool) : Text := if isLast then s.last else s.branch

/-- The stroke in front of what hangs below an item. -/
def continuation (s : Strokes) (isLast : Bool) : Text := if isLast then s.space else s.vertical

end Strokes

/-- Which leaves are shown. -/
structure Leaves where
  missing : Bool
  builtins : Bool

namespace ModuleGraph

/-! ## Unrolling -/

/-- The leaves of a module. -/
def leavesOf (g : ModuleGraph) (l : Leaves) (p : Path) : List Text :=
  (if l.missing then (g.missingOf p).map (· ++ " [MISSING]".toList) else []) ++
    (if l.builtins then (g.builtinsOf p).map (· ++ " [BUILTIN]".toList) else [])

/-- Unroll a module, given the modules that are open above it, at most `height` levels down. -/
def unroll (g : ModuleGraph) (l : Leaves) : (height : Nat) → (above : List Path) → Option Text → Path → Branch
  | 0, _, load, p => .module p load false []
  | height + 1, above, load, p =>
    if above.contains p then .module p load true []
    else
      .module p load false
        ((g.edgesOf p).map (fun e => unroll g l height (p :: above) (some e.describe) e.target) ++
          (g.leavesOf l p).map .leaf)

/-- The modules that trees start from. -/
def starts (g : ModuleGraph) : List Path :=
  match g.roots with
  | p :: ps => p :: ps
  | [] => match g.nodes.filter fun p => !(g.edgesOf p).isEmpty with
    | p :: ps => p :: ps
    | [] => g.nodes

/-- The trees of a graph. A branch opens no module twice, so that the number of modules bounds its height. -/
def trees (g : ModuleGraph) (l : Leaves) : List Branch := g.starts.map (g.unroll l (g.nodes.length + 1) [] none)

end ModuleGraph

/-! ## Drawing -/

namespace Branch

/-- The line of a branch without strokes. -/
def title (display : Path → Text) : Branch → Text
  | .module p load isCycle _ =>
    display p ++ (if isCycle then " [*]".toList else []) ++
      match load with
      | some how => "  (".toList ++ how ++ [')']
      | none => []
  | .leaf t => t

mutual

/-- The lines of what hangs below a branch, each behind the strokes of the branches above. -/
def hanging (s : Strokes) (display : Path → Text) (strokes : Text) : Branch → List Text
  | .module _ _ _ items => itemLines s display strokes items
  | .leaf _ => []

/-- The lines of sibling items. -/
def itemLines (s : Strokes) (display : Path → Text) (strokes : Text) : List Branch → List Text
  | [] => []
  | b :: bs =>
    let isLast := bs.isEmpty
    (strokes ++ s.connector isLast ++ b.title display) ::
      hanging s display (strokes ++ s.continuation isLast) b ++ itemLines s display strokes bs

end

/-- The lines of a tree. -/
def lines (s : Strokes) (display : Path → Text) (b : Branch) : List Text := b.title display :: b.hanging s display []

end Branch

/-- A graph drawn as trees, with an empty line between them. -/
def ModuleGraph.drawing (g : ModuleGraph) (v : Viewpoint) (s : Strokes) (l : Leaves) : Text :=
  Text.join "\n" ([[]].intercalate ((g.trees l).map (Branch.lines s v.display)))

end SassModules
