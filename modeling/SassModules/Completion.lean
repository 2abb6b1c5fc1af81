import SassModules.Exposure

/-!
# Completing what is typed

The candidates for a cursor: the parameters of an open mixin call that are not written yet, the members behind an alias,
or the variables in scope at a bare `$`. A fault on the way is reported and gives no candidates.
-/

namespace SassModules

/-- What a candidate stands for. -/
inductive CandidateKind where
  | mixin
  | var
  | argument
deriving DecidableEq

/-- How a kind of candidate is spelt. -/
def CandidateKind.text : CandidateKind → Text
  | .mixin => "mixin".toList
  | .var => "variable".toList
  | .argument => "argument".toList

/-- A candidate: what is shown, what is inserted in place of which stretch, and what typing is matched against. -/
structure Candidate where
  label : Text
  kind : CandidateKind
  insertText : Text
  detail : Text
  span : Option Span
  filterText : Option Text
deriving DecidableEq

namespace Completion

/-- A variable with its value, if it has one. -/
def variableDetail (v : Variable) : Text :=
  match v.value with
  | some value => v.name ++ ": ".toList ++ value
  | none => v.name

/-- The typed characters before a position. -/
def typedSpan (p : Position) (typed : Nat) : Span := ⟨⟨p.line, p.character - typed⟩, p⟩

/-- The candidate for a member behind an alias. -/
def memberCandidate (span : Span) : Member → Candidate
  | .var v =>
    let label := '$' :: Name.bare v.name
    ⟨label, .var, label, variableDetail v, some span, none⟩
  | .mixin m => ⟨m.name, .mixin, m.name, '(' :: m.signature ++ [')'], some span, none⟩

/-- The members behind an alias. -/
def members (w : Workspace) (d : Document) (p : Position) (aliasName : Text) (filter : MemberFilter) (typed : Nat) :
    Query (List Candidate) := do
  match ← w.resolveAlias d.text aliasName d.file with
  | none => return []
  | some modulePath =>
    let bindings ← if filter.admitsVariables then w.visibleMembers modulePath .var else pure []
    let mixins ← if filter.admitsMixins then w.visibleMembers modulePath .mixin else pure []
    let found := (bindings ++ mixins).map (memberCandidate (typedSpan p typed))
    Session.report (.completionOffered found.length aliasName)
    return found

/-- The candidate for a parameter. -/
def parameterCandidate (p : Parameter) : Candidate :=
  let label := '$' :: p.name
  let detail := match p.default with
    | some value => "(optional) default: ".toList ++ value
    | none => "(required)".toList
  ⟨label, .argument, label ++ ": ".toList, detail, none, none⟩

/-- The names of the arguments that are written in a text. -/
def writtenArguments (before : Text) : List Text := (Pattern.binding.hits before).map fun h => Name.bare h.value.1

/-- The mixin that a call names, in the document or behind an alias. -/
def calledMixin (w : Workspace) (d : Document) (aliasName : Option Text) (mixin : Text) : Query (Option Mixin) := do
  match aliasName with
  | none => Session.findMixin d.text mixin d.file
  | some a =>
    match ← w.resolveAlias d.text a d.file with
    | none => return none
    | some modulePath =>
      match ← w.resolveMember modulePath mixin with
      | some (.mixin m) => return some m
      | _ => return none

/-- The parameters of a call that are not written yet. -/
def arguments (w : Workspace) (d : Document) (p : Position) (aliasName : Option Text) (mixin : Text) :
    Query (List Candidate) := do
  match ← calledMixin w d aliasName mixin with
  | none => return []
  | some m =>
    let written := writtenArguments (d.textBefore p)
    return (m.parameters.filter fun q => !written.contains q.name).map parameterCandidate

/-- The candidate for a variable of the document; its sigil is typed already. -/
def localCandidate (v : Variable) : Candidate := ⟨v.name, .var, Name.bare v.name, variableDetail v, none, none⟩

/-- The candidate for a variable of a module that the document uses. -/
def importedCandidate (span : Span) (aliasName : Text) (v : Variable) : Candidate :=
  let label := aliasName ++ ".$".toList ++ Name.bare v.name
  ⟨label, .var, label, variableDetail v, some span, some ('$' :: label)⟩

/-- Candidates with labels that were not seen before, each once. -/
def newLabels : (seen : List Text) → List Candidate → List Candidate
  | _, [] => []
  | seen, c :: cs => if seen.contains c.label then newLabels seen cs else c :: newLabels (c.label :: seen) cs

/-- The variable of a member, if it is one. -/
def asVariable : Member → Option Variable
  | .var v => some v
  | .mixin _ => none

/-- The variables of each module that a document uses, under its alias. -/
def importedVariables (w : Workspace) (d : Document) (span : Span) : List Import → Query (List Candidate)
  | [] => return []
  | i :: is => do
    if ModulePath.isBuiltin i.path then importedVariables w d span is
    else match ← w.resolve d.file i.path with
      | none => importedVariables w d span is
      | some modulePath =>
        let bindings := (← w.visibleMembers modulePath .var).filterMap asVariable
        return bindings.map (importedCandidate span i.aliasName) ++ (← importedVariables w d span is)

/-- The variables in scope: those of the document, then those of the modules it uses. -/
def scope (w : Workspace) (d : Document) (p : Position) (typed : Nat) : Query (List Candidate) := do
  let own := (Variable.scan d.text d.file).filter fun v => !Name.isPrivate v.name
  let imported ← importedVariables w d (typedSpan p typed) (← Session.imports d.text)
  return newLabels [] (own.map localCandidate ++ imported)

/-- The candidates for a cursor; faults come out. -/
def search (includePaths : List Path) (d : Document) (p : Position) : Query (List Candidate) := do
  Session.report (.completionAsked p)
  let before := d.textBefore p
  match Context.of? before, d.root with
  | none, _ =>
    Session.report (.noContext before)
    return []
  | some _, none => return []
  | some context, some root =>
    Session.report (.contextFound context)
    let w : Workspace := ⟨root, includePaths⟩
    match context with
    | .mixinArgument aliasName mixin => arguments w d p aliasName mixin
    | .memberAccess aliasName filter typed => members w d p aliasName filter typed
    | .scopeVariable typed => scope w d p typed

/-- The candidates for a cursor. -/
def candidates (includePaths : List Path) (d : Document) (p : Position) : Query (List Candidate) :=
  tryCatch (search includePaths d p) fun _ => do
    Session.report .completionFailed
    return []

end Completion

end SassModules
