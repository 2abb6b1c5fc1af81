import SassModules.Graph.Tree
import SassModules.Json.Writer

/-!
# Graphs as JSON

The modules of a graph and its edges, among them those to unresolved and to built-in modules, with paths as they are
shown.
-/

namespace SassModules.ModuleGraph

/-- The field of an edge's label; an empty label has none. -/
def labelField (e : Edge) : List (Text × Json) :=
  match e.label with
  | some (c :: label) =>
    let name := match e.kind with
      | .use => "alias"
      | .forward => "prefix"
    [(name.toList, .string (c :: label))]
  | _ => []

/-- An edge between two modules. -/
def edgeJson (display : Path → Text) (e : Edge) : Json :=
  .object ([("source".toList, .string (display e.source)), ("target".toList, .string (display e.target)),
    ("kind".toList, .string e.kind.text)] ++ labelField e)

/-- An edge to a module path that has no file, with the mark that says why. -/
def mentionJson (display : Path → Text) (mark : String) (m : Mention) : Json :=
  .object [("source".toList, .string (display m.source)), ("target".toList, .string m.modulePath),
    (mark.toList, .bool true)]

/-- A graph as a JSON value. -/
def toJson (g : ModuleGraph) (v : Viewpoint) (l : Leaves) : Json :=
  .object [("nodes".toList, .array (g.nodes.map fun p => .string (v.display p))),
    ("edges".toList, .array (g.edges.map (edgeJson v.display) ++
      (if l.missing then g.missing.map (mentionJson v.display "missing") else []) ++
      (if l.builtins then g.builtins.map (mentionJson v.display "builtin") else [])))]

end SassModules.ModuleGraph
