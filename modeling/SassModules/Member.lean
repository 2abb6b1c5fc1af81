import SassModules.Declaration
import SassModules.Name
import SassModules.Parameter
import SassModules.Path

/-!
# Member definitions

Mixins and variables as a module defines them. Each kind can be enumerated and looked up by name. Only the enumeration of
variables honours block comments: a line that opens one is skipped, and so are the lines up to the one that closes it.
-/

namespace SassModules

/-- A `@mixin` definition. Line and column point at the keyword, `nameColumn` at the name. -/
structure Mixin where
  name : Text
  file : Path
  line : Nat
  column : Nat
  nameColumn : Nat
  parameters : List Parameter
deriving DecidableEq

/-- A `$name: value` binding. The name carries its sigil. -/
structure Variable where
  name : Text
  file : Path
  line : Nat
  column : Nat
  value : Option Text
deriving DecidableEq

/-- A definition of either kind. -/
inductive Member where
  | mixin (m : Mixin)
  | var (v : Variable)
deriving DecidableEq

namespace Mixin

/-- The parameters as they are written in a list. -/
def signature (m : Mixin) : Text := Parameter.signatures m.parameters

/-- The parameter of a name. -/
def parameter? (m : Mixin) (name : Text) : Option Parameter := m.parameters.find? (·.name == name)

end Mixin

namespace Member

/-- The name of a definition. -/
def name : Member → Text
  | .mixin m => m.name
  | .var v => v.name

/-- The same definition under another name. -/
def rename (n : Text) : Member → Member
  | .mixin m => .mixin { m with name := n }
  | .var v => .var { v with name := n }

end Member

/-! ## Mixins -/

/-- The head of a mixin: its name, the distance from keyword to name, and whether a parameter list follows. -/
structure Mixin.Head where
  name : Text
  nameOffset : Nat
  hasList : Bool
deriving DecidableEq

/-- The start of a definition: `@mixin name(` or `@mixin name {`. -/
def Pattern.mixinHead : Pattern Mixin.Head := fun s => do
  let t ← literal "@mixin" s
  let u ← blanks1 t
  let (name, v) ← word u
  match blanks v with
  | '(' :: rest => some (⟨name, s.length - u.length, true⟩, rest)
  | '{' :: rest => some (⟨name, s.length - u.length, false⟩, rest)
  | _ => none

namespace Mixin

/-- The mixin heads of some lines, each with its line. -/
def heads (lines : List (Text × Nat)) : List (Nat × Hit Head) :=
  lines.flatMap fun (line, n) => (Pattern.mixinHead.hits line).map fun h => (n, h)

/-- The parameters of a head; none when its list is not closed. -/
def headParameters? (lines : List Text) (n : Nat) (h : Hit Head) : Option (List Parameter) :=
  if h.value.hasList then Parameter.readList? lines n (h.stop - 1) h.start else some []

/-- The definition that a head begins. -/
def ofHead (file : Path) (parameters : List Parameter) (n : Nat) (h : Hit Head) : Mixin :=
  ⟨h.value.name, file, n, h.start, h.start + h.value.nameOffset, parameters⟩

/-- The definition that a head begins, with its parameters. -/
def ofHeadIn (lines : List Text) (file : Path) (head : Nat × Hit Head) : Mixin :=
  ofHead file ((headParameters? lines head.1 head.2).getD []) head.1 head.2

/-- Every mixin of a text, without parameters. -/
def outline (content : Text) (file : Path) : List Mixin :=
  (heads (Source.codeLines content)).map fun head => ofHead file [] head.1 head.2

/-- Every mixin of a text, with its parameters. -/
def scan (content : Text) (file : Path) : List Mixin :=
  (heads (Source.codeLines content)).map (ofHeadIn content.lines file)

/-- The head of the first mixin of a name. -/
def findHead? (content name : Text) : Option (Nat × Hit Head) :=
  (heads (Source.codeLines content)).find? (·.2.value.name == name)

/-- The first mixin of a name, with its parameters. -/
def find? (content name : Text) (file : Path) : Option Mixin :=
  (findHead? content name).map (ofHeadIn content.lines file)

end Mixin

/-! ## Variables -/

/-- A name, white space and a colon; gives what follows the colon. -/
def Pattern.bindingOf (name : Text) : Pattern Text := fun s => do
  let rest ← literal ":" (blanks (← name.isPrefixOf? s))
  some (rest, rest)

/-- A binding `$name:`; gives the name and what follows the colon. -/
def Pattern.binding : Pattern (Text × Text) := fun s => do
  let (name, t) ← word (← literal "$" s)
  let rest ← literal ":" (blanks t)
  some (('$' :: name, rest), rest)

namespace Variable

/-- The value of a binding: the text up to a semicolon, if it is not blank. -/
def valueIn (rest : Text) : Option Text :=
  let value := Text.trim (rest.takeWhile (· != ';'))
  if value = [] then none else some value

/-- The lines outside block comments and `//` comments; `inBlock` says whether a block comment is open. -/
def outsideComments : (inBlock : Bool) → List (Text × Nat) → List (Text × Nat)
  | _, [] => []
  | true, l :: ls => outsideComments (!Text.occurs "*/" l.1) ls
  | false, l :: ls =>
    if Source.isCommentLine l.1 then outsideComments false ls
    else match Text.after? "/*" l.1 with
      | some rest => outsideComments (!Text.occurs "*/" rest) ls
      | none => l :: outsideComments false ls

/-- Every variable of a text outside comments. -/
def scan (content : Text) (file : Path) : List Variable :=
  (outsideComments false content.lines.zipIdx).flatMap fun (line, n) =>
    (Pattern.binding.hits line).map fun h => ⟨h.value.1, file, n, h.start, valueIn h.value.2⟩

/-- The first binding of a name. -/
def find? (content name : Text) (file : Path) : Option Variable :=
  (Source.codeLines content).findSome? fun (line, n) =>
    ((Pattern.bindingOf name).firstHit? line).map fun h => ⟨name, file, n, h.start, valueIn h.value⟩

end Variable

/-- Every definition of a kind in a text. -/
def Member.scan (kind : MemberKind) (content : Text) (file : Path) : List Member :=
  match kind with
  | .mixin => (Mixin.scan content file).map .mixin
  | .var => (Variable.scan content file).map .var

end SassModules
