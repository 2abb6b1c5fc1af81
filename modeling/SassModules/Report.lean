import SassModules.Completion
import SassModules.Graph.Display
import SassModules.Json.Writer

/-!
# Reports

Locations and candidates as text and as JSON.
-/

namespace SassModules.Report

/-- A location as `file:line:column`. -/
def locationText (v : Viewpoint) : Option Location → Text
  | none => "No definition found".toList
  | some l => v.display l.file ++ ':' :: Text.ofInt l.line ++ ':' :: Text.ofInt l.column

/-- A location as JSON. -/
def locationJson (v : Viewpoint) : Option Location → Json
  | none => .object [("found".toList, .bool false)]
  | some l => .object [("found".toList, .bool true), ("file".toList, .string (v.display l.file)),
      ("line".toList, .ofInt l.line), ("column".toList, .ofInt l.column)]

/-- The longest text of a list. -/
def width (ts : List Text) : Nat := ts.foldl (fun n t => max n t.length) 0

/-- Candidates in rows of label, kind and detail, with aligned columns. -/
def candidatesText (cs : List Candidate) : Text :=
  match cs with
  | [] => "No completions".toList
  | _ =>
    let labels := width (cs.map (·.label))
    let kinds := width (cs.map (·.kind.text))
    Text.join "\n" (cs.map fun c =>
      Text.trimEnd (c.label.padTo labels ++ "  ".toList ++ c.kind.text.padTo kinds ++ "  ".toList ++ c.detail))

/-- A position as JSON. -/
def positionJson (p : Position) : Json :=
  .object [("line".toList, .ofInt p.line), ("character".toList, .ofInt p.character)]

/-- A candidate as JSON. -/
def candidateJson (c : Candidate) : Json :=
  let span := match c.span with
    | some s => [("range".toList, Json.object [("start".toList, positionJson s.start), ("end".toList, positionJson s.stop)])]
    | none => []
  let filter := match c.filterText with
    | some t => [("filterText".toList, Json.string t)]
    | none => []
  .object ([("label".toList, .string c.label), ("kind".toList, .string c.kind.text),
    ("insertText".toList, .string c.insertText), ("detail".toList, .string c.detail)] ++ span ++ filter)

/-- Candidates as JSON. -/
def candidatesJson (cs : List Candidate) : Json := .array (cs.map candidateJson)

end SassModules.Report
