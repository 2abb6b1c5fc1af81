import SassModules.Forwarding

/-!
# What a module exposes

An alias leads to a module, a member name to its definition through the forwarded modules, and a module to the list of its
public members. `@forward` comes first in a look-up: a member is looked for in the module itself only when no declaration
of the module fits.
-/

namespace SassModules.Workspace

/-- The module that an alias is bound to in a text. -/
def resolveAlias (w : Workspace) (content aliasName : Text) (file : Path) : Query (Option Path) := do
  match (← Session.imports content).find? (·.aliasName == aliasName) with
  | none =>
    Session.report (.aliasUnbound aliasName)
    return none
  | some i =>
    Session.report (.aliasBound i.path i.aliasName)
    if ModulePath.isBuiltin i.path then
      Session.report (.aliasBuiltin aliasName)
      return none
    match ← w.resolve file i.path with
    | none =>
      Session.report (.aliasFailed i.path)
      return none
    | some path =>
      Session.report (.aliasResolved path)
      return some path

/-- The definition of a name in a text, of the kind that the name has. -/
def definedIn (content name : Text) (file : Path) : Query (Option Member) := do
  if Name.isVariable name then return (← Session.findVariable content name file).map .var
  else return (← Session.findMixin content name file).map .mixin

/-- The definition of a member that a module exposes. -/
def resolveMember (w : Workspace) (modulePath : Path) (member : Text) : Query (Option Member) := do
  let content ← Session.fileText modulePath
  match ← Forwarding.fresh (Forwarding.find w content member modulePath) with
  | some origin =>
    let target ← Session.fileText origin.file
    Session.report (.memberForwarded origin.file origin.name)
    definedIn target origin.name origin.file
  | none =>
    Session.report (.memberDirect modulePath)
    definedIn content member modulePath

/-- The public members of a list, each name once, at its first occurrence. -/
def publicMembers : (seen : List Text) → List Member → List Member
  | _, [] => []
  | seen, m :: ms =>
    if Name.isPrivate m.name || seen.contains m.name then publicMembers seen ms
    else m :: publicMembers (m.name :: seen) ms

/-- The public members of a kind that a module exposes: its own, then the forwarded ones. -/
def visibleMembers (w : Workspace) (modulePath : Path) (kind : MemberKind) : Query (List Member) := do
  let content ← Session.fileText modulePath
  let own ← Session.members kind content modulePath
  let forwarded ← Forwarding.fresh (Forwarding.list w kind content modulePath)
  return publicMembers [] (own ++ forwarded)

end SassModules.Workspace
