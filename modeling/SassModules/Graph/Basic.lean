import SassModules.Path
import SassModules.Text.Number

/-!
# Module graphs

Which module loads which, by `@use` under an alias or by `@forward` under a prefix, with the module paths that resolve to
nothing and the built-in modules. Each part is a list in strictly increasing order, so that a graph depends only on the
set of the operations that built it.
-/

namespace SassModules

/-- Insert into a strictly increasing list; an element that is there already is not repeated. -/
def insertSorted {α : Type} (order : α → α → Ordering) (a : α) : List α → List α
  | [] => [a]
  | b :: bs =>
    match order a b with
    | .lt => a :: b :: bs
    | .eq => b :: bs
    | .gt => b :: insertSorted order a bs

/-- How a module is loaded. -/
inductive EdgeKind where
  | use
  | forward
deriving DecidableEq

/-- How a kind of edge is spelt. -/
def EdgeKind.text : EdgeKind → Text
  | .use => "use".toList
  | .forward => "forward".toList

/-- One module loads another. The label is the alias of a `@use` and the prefix of a `@forward`. -/
structure Edge where
  source : Path
  target : Path
  kind : EdgeKind
  label : Option Text
deriving DecidableEq

namespace Edge

/-- Edges are ordered by source, target, kind and label; a missing label comes before the empty one. -/
def order (e f : Edge) : Ordering :=
  (compare e.source f.source).then <| (compare e.target f.target).then <|
    (compare e.kind.text f.kind.text).then <| (compare (e.label.getD []) (f.label.getD [])).then <|
      compare e.label.isSome.toNat f.label.isSome.toNat

/-- The label as it is shown. -/
def shownLabel (e : Edge) : Text := e.label.getD "None".toList

/-- The declaration behind an edge. -/
def describe (e : Edge) : Text :=
  match e.kind, e.label with
  | .use, _ => "@use as ".toList ++ e.shownLabel
  | .forward, some (c :: label) => "@forward as ".toList ++ c :: label ++ ['*']
  | .forward, _ => "@forward".toList

end Edge

/-- A module and a module path that it loads. -/
structure Mention where
  source : Path
  modulePath : Text
deriving DecidableEq

/-- Mentions are ordered by source and module path. -/
def Mention.order (m n : Mention) : Ordering :=
  (compare m.source n.source).then (compare m.modulePath n.modulePath)

/-- A module graph. -/
structure ModuleGraph where
  nodes : List Path
  edges : List Edge
  missing : List Mention
  builtins : List Mention
deriving DecidableEq

namespace ModuleGraph

/-- The graph without modules. -/
def empty : ModuleGraph := ⟨[], [], [], []⟩

/-! ## Building -/

/-- Add a module. -/
def addNode (g : ModuleGraph) (p : Path) : ModuleGraph := { g with nodes := insertSorted compare p g.nodes }

/-- Add an edge and its two modules. -/
def addEdge (g : ModuleGraph) (e : Edge) : ModuleGraph :=
  let g := (g.addNode e.source).addNode e.target
  { g with edges := insertSorted Edge.order e g.edges }

/-- Add a module path that resolves to nothing. -/
def addMissing (g : ModuleGraph) (m : Mention) : ModuleGraph :=
  let g := g.addNode m.source
  { g with missing := insertSorted Mention.order m g.missing }

/-- Add a built-in module. -/
def addBuiltin (g : ModuleGraph) (m : Mention) : ModuleGraph :=
  let g := g.addNode m.source
  { g with builtins := insertSorted Mention.order m g.builtins }

/-! ## Views -/

/-- The edges that leave a module. -/
def edgesOf (g : ModuleGraph) (p : Path) : List Edge := g.edges.filter (·.source == p)

/-- The modules that a module loads, in order. -/
def targetsOf (g : ModuleGraph) (p : Path) : List Path :=
  (g.edgesOf p).foldl (fun ts e => insertSorted compare e.target ts) []

/-- The module paths of a module that resolve to nothing. -/
def missingOf (g : ModuleGraph) (p : Path) : List Text := (g.missing.filter (·.source == p)).map (·.modulePath)

/-- The built-in modules of a module. -/
def builtinsOf (g : ModuleGraph) (p : Path) : List Text := (g.builtins.filter (·.source == p)).map (·.modulePath)

/-- The modules that no module loads. -/
def roots (g : ModuleGraph) : List Path := g.nodes.filter fun p => !g.edges.any (·.target == p)

/-- The sizes of the parts of a graph. -/
def summary (g : ModuleGraph) : Text :=
  "ModuleGraph(nodes=".toList ++ Text.ofNat g.nodes.length ++ ", edges=".toList ++ Text.ofNat g.edges.length ++
    ", missing=".toList ++ Text.ofNat g.missing.length ++ ", builtins=".toList ++ Text.ofNat g.builtins.length ++ [')']

end ModuleGraph

end SassModules
