import SassModules.Event

/-!
# The journal

Messages are logged under the names of components, which are hierarchical by dots. The journal shows the messages of the
library's own components that reach the trace level, each as a line of the output that was chosen last. Outputs that were
chosen before keep what they have.
-/

namespace SassModules

/-- Outputs with what was written to them, and the one that is written to, if any is chosen, with its trace level. -/
structure Journal where
  outputs : List (Text × Text)
  current : Option (Text × TraceLevel)

namespace Journal

/-- A journal without an output. -/
def empty : Journal := ⟨[], none⟩

/-- The components whose messages are shown. -/
def components : List String := ["scanner", "providers", "utils", "graph", "exporters", "cli"]

/-- Does a name belong to one of the components? -/
def isShown (name : Text) : Bool := components.any fun c => name == c.toList || name.startsWith (c ++ ".")

/-- Write a text to an output. -/
def append (output t : Text) : List (Text × Text) → List (Text × Text)
  | [] => [(output, t)]
  | (o, w) :: os => if o = output then (o, w ++ t) :: os else (o, w) :: append output t os

/-- Choose the output and the trace level. -/
def configure (j : Journal) (output : Text) (t : TraceLevel) : Journal := ⟨append output [] j.outputs, some (output, t)⟩

/-- Log a message of a component. -/
def log (j : Journal) (name : Text) (l : Level) (message : Text) : Journal :=
  match j.current with
  | some (output, t) =>
    if isShown name && t.isShown l then
      { j with outputs := append output ((l.line (Text.str message)).toList ++ ['\n']) j.outputs }
    else j
  | none => j

end Journal

end SassModules
