import SassModules.Exposure

/-!
# Finding a definition

From a cursor to the place of the definition: of the member or the module of a reference, or of the parameter that an
argument names. An argument is tried first. A fault on the way is reported and counts as nothing found.
-/

namespace SassModules.Definition

/-- The place of a member: of its name, for a mixin. -/
def locationOf : Member → Location
  | .mixin m => ⟨m.file, m.line, m.nameColumn⟩
  | .var v => ⟨v.file, v.line, v.column⟩

/-- The place that a reference leads to. -/
def ofReference (w : Workspace) (d : Document) (r : Reference) : Query (Option Location) := do
  match ← w.resolveAlias d.text r.aliasName d.file with
  | none => return none
  | some modulePath =>
    match r.target with
    | .namespacePart =>
      Session.report (.moduleOpened modulePath)
      return some ⟨modulePath, 0, 0⟩
    | .memberPart =>
      match ← w.resolveMember modulePath r.member with
      | none =>
        Session.report (.definitionAbsent r.member)
        return none
      | some m =>
        Session.report (.definitionFound (locationOf m))
        return some (locationOf m)

/-- The place of the parameter that an argument names. -/
def ofArgument (w : Workspace) (d : Document) (a : Argument) : Query (Option Location) := do
  match ← w.resolveAlias d.text a.aliasName d.file with
  | none => return none
  | some modulePath =>
    match ← w.resolveMember modulePath a.mixin with
    | some (.mixin m) =>
      if m.parameters.isEmpty then
        Session.report (.noParameters m.name)
        return none
      match m.parameter? a.name with
      | none =>
        Session.report (.parameterAbsent a.name (m.parameters.map (·.name)))
        return none
      | some p =>
        let location : Location := ⟨m.file, p.line, p.column⟩
        Session.report (.argumentFound location)
        return some location
    | _ =>
      Session.report (.callUnknown a.mixin)
      return none

/-- The place that a cursor in a document of a workspace leads to; faults come out. -/
def search (includePaths : List Path) (d : Document) (p : Position) : Query (Option Location) := do
  Session.report (.definitionAsked d.file p)
  match d.root with
  | none =>
    Session.report .noWorkspace
    return none
  | some root =>
    let w : Workspace := ⟨root, includePaths⟩
    let line := d.lineAt p.line
    match Argument.at? line p.character with
    | some a =>
      Session.report (.argumentAsked a)
      ofArgument w d a
    | none =>
      match Reference.at? line p.character with
      | none =>
        Session.report .noToken
        return none
      | some r =>
        Session.report (.referenceAsked r)
        ofReference w d r

/-- The place that a cursor leads to. -/
def find (includePaths : List Path) (d : Document) (p : Position) : Query (Option Location) :=
  tryCatch (search includePaths d p) fun _ => do
    Session.report .definitionFailed
    return none

end SassModules.Definition
