import SassModules.Text.Pattern

/-!
# Module declarations

`@use "path" as alias` binds a module to an alias, `@forward "path" as prefix-*` passes its members on. Both are read line
by line; a line that begins with `//` holds no code, and a block comment hides nothing from these readers.
-/

namespace SassModules

namespace Source

/-- A line whose first characters are `//` holds no code. -/
def isCommentLine (line : Text) : Bool := line.trimStart.startsWith "//"

/-- The lines of a text that hold code, with their numbers. -/
def codeLines (content : Text) : List (Text × Nat) := content.lines.zipIdx.filter fun l => !isCommentLine l.1

end Source

/-- The file endings of stylesheets, preferred first. -/
def styleExtensions : List Text := [".scss".toList, ".sass".toList]

namespace ModulePath

/-- Built-in modules are named by `sass:` and have no file. -/
def isBuiltin (path : Text) : Bool := path.startsWith "sass:"

/-- The text without the given ending, if it has it. -/
def dropEnding? (ending t : Text) : Option Text :=
  if t.endsWith ending then some (t.take (t.length - ending.length)) else none

/-- The text without the given beginning, unchanged if it lacks it. -/
def dropBeginning (w : String) (t : Text) : Text := (w.toList.isPrefixOf? t).getD t

/-- The alias of a `@use` without `as`: the last segment of the path without `sass:`, a stylesheet ending and the
underscore of a partial. -/
def defaultAlias (path : Text) : Text :=
  let last := dropBeginning "sass:" ((path.splitOn '/').getLast?.getD [])
  let stem := (styleExtensions.findSome? (dropEnding? · last)).getD last
  dropBeginning "_" stem

end ModulePath

namespace Pattern

/-- A path between quotes; either quote closes it. -/
def quotedPath : Pattern Text := fun s => do
  match s with
  | q :: s =>
    guard (q == '"' || q == '\'')
    let (path, s) ← run1 (fun c => c != '"' && c != '\'') s
    match s with
    | _ :: s => some (path, s)
    | [] => none
  | [] => none

/-- White space, `as` and white space. -/
def asKeyword (s : Text) : Option Text := do
  let s ← blanks1 s
  let s ← literal "as" s
  blanks1 s

/-- The clause ` as alias`. -/
def aliasClause : Pattern Text := fun s => do word (← asKeyword s)

/-- The clause ` as prefix-*`; the prefix keeps its hyphen and has a character before it. -/
def prefixClause : Pattern Text := fun s => do
  let (w, s) ← word (← asKeyword s)
  guard (w.length ≥ 2 && w.getLast? == some '-')
  let s ← literal "*" s
  some (w, s)

/-- A clause that may be missing. -/
def optional {α : Type} (clause : Pattern α) (s : Text) : Option α × Text :=
  match clause s with
  | some (a, rest) => (some a, rest)
  | none => (none, s)

/-- The rule `@use "path" as alias`, the alias clause optional. -/
def useRule : Pattern (Text × Option Text) := fun s => do
  let s ← blanks1 (← literal "@use" s)
  let (path, s) ← quotedPath s
  let (named, s) := optional aliasClause s
  some ((path, named), s)

/-- The rule `@forward "path" as prefix-*`, the prefix clause optional. -/
def forwardRule : Pattern (Text × Option Text) := fun s => do
  let s ← blanks1 (← literal "@forward" s)
  let (path, s) ← quotedPath s
  let (pre?, s) := optional prefixClause s
  some ((path, pre?), s)

end Pattern

/-- A `@use` declaration. -/
structure Import where
  path : Text
  aliasName : Text
  line : Nat
deriving DecidableEq

/-- A `@forward` declaration; a prefix keeps its trailing hyphen. -/
structure Reexport where
  path : Text
  pre : Option Text
  line : Nat
deriving DecidableEq

/-- The `@use` declarations of a text in source order. -/
def Import.scan (content : Text) : List Import :=
  (Source.codeLines content).flatMap fun (line, n) =>
    (Pattern.useRule.hits line).map fun h => ⟨h.value.1, h.value.2.getD (ModulePath.defaultAlias h.value.1), n⟩

/-- The first `@use` that binds an alias. -/
def Import.find? (content aliasName : Text) : Option Import := (Import.scan content).find? (·.aliasName == aliasName)

/-- The `@forward` declarations of a text in source order. -/
def Reexport.scan (content : Text) : List Reexport :=
  (Source.codeLines content).flatMap fun (line, n) =>
    (Pattern.forwardRule.hits line).map fun h => ⟨h.value.1, h.value.2, n⟩

end SassModules
