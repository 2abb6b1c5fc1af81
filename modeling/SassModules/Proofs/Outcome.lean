import SassModules.CommandLine.Run
import SassModules.Proofs.Coherence

/-!
# How a request ends

A request that the command line accepts ends in one of three ways: with an answer, with a complaint on the error output,
or with a fault that comes out. Which failure is complained about (`Complains`) and which comes out (`Escapes`) is told by
the disk and the request. The stages of a run are followed one after the other, with one lemma for each end of a stage;
that one of the three ways is taken (`run_ends`) then gives what an end says about the disk.
-/

namespace SassModules

/-- Work whose faults are all caught, by a handler that answers, answers. -/
theorem exists_answer_tryCatch {ε σ α : Type} {x : EStateM ε σ α} {k : ε → EStateM ε σ α}
    (hk : ∀ e s, ∃ a, answer (k e) s = .ok a) (s : σ) : ∃ a, answer (tryCatch x k) s = .ok a := by
  rw [answer_tryCatch]
  cases answer x s with
  | ok a => exact ⟨a, rfl⟩
  | error e => exact hk e _

/-- Asking for a definition always gives an answer. -/
theorem Definition.exists_answer_find (includePaths : List Path) (d : Document) (p : Position) (s : Session) :
    ∃ found, answer (find includePaths d p) s = .ok found := exists_answer_tryCatch (fun _ _ => ⟨none, rfl⟩) s

/-- Asking for completions always gives an answer. -/
theorem Completion.exists_answer_candidates (includePaths : List Path) (d : Document) (p : Position) (s : Session) :
    ∃ found, answer (candidates includePaths d p) s = .ok found := exists_answer_tryCatch (fun _ _ => ⟨[], rfl⟩) s

/-! ## Settings -/

namespace Settings

/-- The path starts in a home that is not known. -/
def IsHomeless (d : Disk) (p : Path) : Prop :=
  p.isAbsolute = false ∧ ∃ user ns, p.names = ('~' :: user) :: ns ∧ d.home? user = none

theorem map_expandHome_eq_error {d : Disk} {p : Path} {f : Path → Path} {fault : Fault} :
    (expandHome d p).map f = .error fault ↔ IsHomeless d p ∧ fault = .homeUnknown := by
  rw [map_eq_error]
  unfold expandHome IsHomeless
  split
  · rename_i user ns habs hnames
    cases hhome : d.home? user with
    | none => simp [habs, hnames, hhome, eq_comm]
    | some home => simp [habs, hnames, hhome]
  · rename_i hother
    constructor
    · intro h; cases h
    · rintro ⟨⟨habs, user, ns, hnames, -⟩, -⟩
      exact absurd hnames (hother user ns habs)

/-- The include paths are refused when one of them starts in a home that is not known. -/
theorem directories_eq_error {s : Settings} {d : Disk} {root : Path} {fault : Fault} :
    s.directories d root = .error fault ↔
      (∃ t ∈ s.includePaths, IsHomeless d (Path.ofText t)) ∧ fault = .homeUnknown :=
  mapM_eq_error (fun _ _ => map_expandHome_eq_error) s.includePaths

/-! ### Data -/

/-- The trace level that the data gives, or null. -/
def traceData (fields inSection : List (Data × Data)) : Data :=
  ((Data.field? "trace" fields).or (Data.field? "trace.server" inSection)).getD .null

/-- The data gives a trace level in which a number stands that is too long to be written. -/
def HasLongTrace (data : Data) : Prop :=
  ∃ fields inSection, data = .map fields ∧ sectionFields fields = .ok inSection ∧
    (traceData fields inSection).hasLongNumber = true

theorem traceOf_eq_error {data : Data} {fault : Fault} (h : traceOf data = .error fault) :
    data.hasLongNumber = true ∧ fault = .longNumber none ∨ ∃ cause, fault = .settings cause := by
  unfold traceOf at h
  split at h
  · cases h
  · cases h
  · split at h
    · rename_i hlong
      exact Or.inl ⟨hlong, (Except.error.inj h).symm⟩
    · split at h
      · cases h
      · exact Or.inr ⟨_, (Except.error.inj h).symm⟩

theorem traceOf_of_hasLongNumber {data : Data} (h : data.hasLongNumber = true) :
    traceOf data = .error (.longNumber none) := by
  unfold traceOf
  split
  · cases h
  · cases h
  · exact if_pos h

theorem sectionFields_eq_error {fields : List (Data × Data)} {fault : Fault} (h : sectionFields fields = .error fault) :
    ∃ cause, fault = .settings cause := by
  unfold sectionFields at h
  split at h
  · cases h
  · cases h
  · cases h
  · exact ⟨_, (Except.error.inj h).symm⟩

theorem includePathsOf_eq_error {data : Data} {fault : Fault} (h : includePathsOf data = .error fault) :
    ∃ cause, fault = .settings cause := by
  unfold includePathsOf at h
  split at h
  · cases h
  · cases h
  · split at h
    · cases h
    · exact ⟨_, (Except.error.inj h).symm⟩
  · exact ⟨_, (Except.error.inj h).symm⟩

theorem ofData_of_hasLongTrace {data : Data} (h : HasLongTrace data) : ofData data = .error (.longNumber none) := by
  obtain ⟨fields, inSection, rfl, hsection, hlong⟩ := h
  have htrace := traceOf_of_hasLongNumber hlong
  unfold ofData
  simp only [hsection, ok_bind]
  show traceOf (traceData fields inSection) >>= _ = _
  rw [htrace, error_bind]

/-- Data that gives no settings is complained about, unless its trace level is too long to be. -/
theorem ofData_eq_error {data : Data} {fault : Fault} (h : ofData data = .error fault) :
    HasLongTrace data ∨ ∃ cause, fault = .settings cause := by
  unfold ofData at h
  split at h
  · cases h
  · rename_i fields
    rcases bind_eq_error.1 h with hsection | ⟨inSection, hsection, h⟩
    · exact Or.inr (sectionFields_eq_error hsection)
    rcases bind_eq_error.1 h with htrace | ⟨trace, -, h⟩
    · rcases traceOf_eq_error htrace with ⟨hlong, -⟩ | hcause
      · exact Or.inl ⟨fields, inSection, rfl, hsection, hlong⟩
      · exact Or.inr hcause
    rcases bind_eq_error.1 h with hpaths | ⟨paths, -, h⟩
    · exact Or.inr (includePathsOf_eq_error hpaths)
    · cases h
  · exact Or.inr ⟨_, (Except.error.inj h).symm⟩

/-! ### Files -/

/-- The faults of the settings file that are not put down to the settings: it is not told whether there is one, it is no
text or its path is one that no disk can hold, its reader raises something, or its trace level cannot be written. -/
inductive LoadEscapes (reader : Data.Reader) (d : Disk) (given root : Option Path) : Fault → Prop
  | source {cause : ReadFault} (h : source? d given root = .error cause) : LoadEscapes reader d given root (.read cause)
  | text {file : Path} {cause : ReadFault} (hfile : source? d given root = .ok (some file))
      (hread : d.readText file = .error cause) (hcause : cause.isRefusal = false) :
      LoadEscapes reader d given root (.read cause)
  | reader {file : Path} {content message : Text} (hfile : source? d given root = .ok (some file))
      (hread : d.readText file = .ok content) (hraised : reader content = .error (.raised message)) :
      LoadEscapes reader d given root (.raised message)
  | trace {file : Path} {content : Text} {data : Data} (hfile : source? d given root = .ok (some file))
      (hread : d.readText file = .ok content) (hdata : reader content = .ok data) (hlong : HasLongTrace data) :
      LoadEscapes reader d given root (.longNumber none)

section Load

variable {reader : Data.Reader} {d : Disk} {given root : Option Path} {fault : Fault}

theorem load_of_escapes (h : LoadEscapes reader d given root fault) : load reader d given root = .error fault := by
  unfold load
  cases h with
  | source h => rw [h]
  | text hfile hread hcause => simp [hfile, ofFile, hread, hcause]
  | reader hfile hread hraised => simp only [hfile, ofFile, hread, hraised]
  | trace hfile hread hdata hlong => simp only [hfile, ofFile, hread, hdata, ofData_of_hasLongTrace hlong]

/-- Any other fault of loading is a fault of the settings. -/
theorem load_error_cases (h : load reader d given root = .error fault) :
    (∃ cause, fault = .settings cause) ∨ LoadEscapes reader d given root fault := by
  unfold load at h
  cases hsource : source? d given root with
  | error cause =>
    rw [hsource] at h
    obtain rfl := Except.error.inj h
    exact Or.inr (.source hsource)
  | ok file =>
    cases file with
    | none =>
      rw [hsource] at h
      cases h
    | some file =>
      simp only [hsource, ofFile] at h
      cases hread : d.readText file with
      | error cause =>
        simp only [hread] at h
        obtain rfl := Except.error.inj h
        cases hcause : cause.isRefusal with
        | true => exact Or.inl ⟨_, rfl⟩
        | false => exact Or.inr (.text hsource hread hcause)
      | ok content =>
        simp only [hread] at h
        rcases hreader : reader content with (_ | message) | data
        · simp only [hreader] at h
          exact Or.inl ⟨_, (Except.error.inj h).symm⟩
        · simp only [hreader] at h
          obtain rfl := Except.error.inj h
          exact Or.inr (.reader hsource hread hreader)
        · simp only [hreader] at h
          rcases ofData_eq_error h with hlong | hcause
          · rw [ofData_of_hasLongTrace hlong] at h
            obtain rfl := Except.error.inj h
            exact Or.inr (.trace hsource hread hreader hlong)
          · exact Or.inl hcause

end Load

end Settings

/-! ## The stages of a run -/

namespace CommandLine

open Session

/-- The canonical form of a path that is given, or else another path. -/
def resolveOr (d : Disk) (other : Path) (t : Option Text) : Except ReadFault Path :=
  match given? t with
  | some t => d.resolve (Path.ofText t)
  | none => .ok other

/-- A path is given, and no disk can hold it. -/
def GivenNull (t : Option Text) : Prop := ∃ u, t = some u ∧ (Path.ofText u).hasNull = true

theorem resolve_eq_error {d : Disk} {p : Path} {cause : ReadFault} :
    d.resolve p = .error cause ↔ p.hasNull = true ∧ cause = .nullCharacter := by
  unfold Disk.resolve
  cases p.hasNull with
  | true => simp [eq_comm]
  | false => simp

theorem resolveOr_eq_error {d : Disk} {other : Path} {t : Option Text} {cause : ReadFault} :
    resolveOr d other t = .error cause ↔ GivenNull (given? t) ∧ cause = .nullCharacter := by
  unfold resolveOr GivenNull
  cases given? t with
  | none => simp
  | some u => simp [resolve_eq_error]

section Stages

variable {s : Session} {root : Path}

theorem answer_resolve (t : Text) (s : Session) :
    answer (resolve t) s = (s.disk.resolve (Path.ofText t)).mapError .read := by
  unfold resolve
  rw [answer_get_bind]
  cases s.disk.resolve (Path.ofText t) <;> rfl

theorem after_resolve (t : Text) (s : Session) : after (resolve t) s = s := by
  unfold resolve
  rw [after_get_bind]
  cases s.disk.resolve (Path.ofText t) <;> rfl

theorem answer_askDir (p : Path) (s : Session) : answer (Session.askDir p) s = (s.disk.askDir p).mapError .read := by
  unfold Session.askDir
  rw [answer_get_bind]
  cases s.disk.askDir p <;> rfl

theorem after_askDir (p : Path) (s : Session) : after (Session.askDir p) s = s := by
  unfold Session.askDir
  rw [after_get_bind]
  cases s.disk.askDir p <;> rfl

theorem answer_askDir_bind {α : Type} {p : Path} {found : Bool} (h : s.disk.askDir p = .ok found) (k : Bool → Query α) :
    answer (Session.askDir p >>= k) s = answer (k found) s := by
  rw [answer_bind, answer_askDir, after_askDir, h]
  rfl

theorem answer_askDir_bind_of_error {α : Type} {p : Path} {cause : ReadFault} (h : s.disk.askDir p = .error cause)
    (k : Bool → Query α) : answer (Session.askDir p >>= k) s = .error (.read cause) := by
  rw [answer_bind, answer_askDir, h]
  rfl

theorem steady_askDir (p : Path) : Steady (Session.askDir p) := by
  refine steady_get_bind (fun s => ?_) fun h => by rw [h.1]
  cases s.disk.askDir p with
  | ok found => exact steady_pure found
  | error cause => exact steady_throw _

theorem answer_workspaceRoot (shared : Shared) (s : Session) : answer (workspaceRoot shared) s =
    (resolveOr s.disk (s.disk.canonical s.disk.cwd) shared.root).mapError .read := by
  unfold workspaceRoot resolveOr
  cases given? shared.root with
  | some t => exact answer_resolve t s
  | none => rfl

theorem after_workspaceRoot (shared : Shared) (s : Session) : after (workspaceRoot shared) s = s := by
  unfold workspaceRoot
  cases given? shared.root with
  | some t => exact after_resolve t s
  | none => rfl

end Stages

/-! ### Before the task -/

/-- The root of the workspace is a directory. -/
structure InWorkspace (d : Disk) (r : Request) (root : Path) : Prop where
  root_eq : resolveOr d (d.canonical d.cwd) r.shared.root = .ok root
  isDir : d.askDir root = .ok true

/-- The settings file that a request names. -/
def Request.config? (r : Request) : Option Path := (given? r.shared.config).map Path.ofText

/-- The workspace and its settings are in order; modules are looked up in these directories. -/
structure Prepared (reader : Data.Reader) (d : Disk) (r : Request) (root : Path) (dirs : List Path) : Prop where
  inWorkspace : InWorkspace d r root
  directories : ∃ settings, Settings.load reader d r.config? (some root) = .ok settings ∧
    settings.directories d root = .ok dirs

section Preparing

variable {reader : Data.Reader} {s : Session} {r : Request} {root : Path} {dirs : List Path}

theorem answer_run_of_null (h : GivenNull (given? r.shared.root)) :
    answer (r.run reader) s = .error (.read .nullCharacter) := by
  unfold Request.run
  rw [answer_bind, answer_workspaceRoot, resolveOr_eq_error.2 ⟨h, rfl⟩]
  rfl

theorem answer_run_of_not_isDir (hroot : resolveOr s.disk (s.disk.canonical s.disk.cwd) r.shared.root = .ok root)
    (hdir : s.disk.askDir root = .ok false) :
    answer (r.run reader) s = .ok (complain [] (notDirectory r.shared.root)) := by
  unfold Request.run
  rw [answer_bind, answer_workspaceRoot, after_workspaceRoot, hroot]
  show answer (Session.askDir root >>= _) s = _
  rw [answer_askDir_bind hdir]
  rfl

theorem answer_run_of_refused {cause : ReadFault}
    (hroot : resolveOr s.disk (s.disk.canonical s.disk.cwd) r.shared.root = .ok root)
    (hdir : s.disk.askDir root = .error cause) : answer (r.run reader) s = .error (.read cause) := by
  unfold Request.run
  rw [answer_bind, answer_workspaceRoot, after_workspaceRoot, hroot]
  show answer (Session.askDir root >>= _) s = _
  exact answer_askDir_bind_of_error hdir _

/-- Going on with the settings, or with the fault of loading them. -/
def Request.runLoaded (r : Request) (root : Path) : Except Fault Settings → Query Outcome
  | .ok settings => r.runWith root settings
  | .error (.settings cause) => return complain [] s!"Error: {cause.message}"
  | .error fault => throw fault

theorem answer_run_of_inWorkspace (h : InWorkspace s.disk r root) :
    answer (r.run reader) s = answer (r.runLoaded root (Settings.load reader s.disk r.config? (some root))) s := by
  unfold Request.run
  rw [answer_bind, answer_workspaceRoot, after_workspaceRoot, h.root_eq]
  show answer (Session.askDir root >>= _) s = _
  rw [answer_askDir_bind h.isDir]
  show answer (get >>= _) s = _
  rw [answer_get_bind]
  show answer (match Settings.load reader s.disk r.config? (some root) with
    | .ok settings => r.runWith root settings
    | .error (.settings cause) => pure (complain [] s!"Error: {cause.message}")
    | .error fault => throw fault) s = _
  rcases Settings.load reader s.disk r.config? (some root) with (_ | _ | _ | _ | _ | _) | _ <;> rfl

/-- Concluding a request with the answer of its task, or with a complaint, behind the log. -/
def Request.conclude (r : Request) (start : Nat) (trace : TraceLevel) : Except String Text → Query Outcome
  | .error complaint => do return complain (← logFrom start trace) complaint
  | .ok text => do deliver r.shared.output (← logFrom start trace) text

theorem answer_run_of_load {fault : Fault} (h : InWorkspace s.disk r root)
    (hload : Settings.LoadEscapes reader s.disk r.config? (some root) fault) : answer (r.run reader) s = .error fault := by
  rw [answer_run_of_inWorkspace h, Settings.load_of_escapes hload]
  cases hload <;> rfl

theorem answer_run_of_homeless {settings : Settings} {t : Text} (h : InWorkspace s.disk r root)
    (hload : Settings.load reader s.disk r.config? (some root) = .ok settings) (ht : t ∈ settings.includePaths)
    (hhome : Settings.IsHomeless s.disk (Path.ofText t)) : answer (r.run reader) s = .error .homeUnknown := by
  rw [answer_run_of_inWorkspace h, hload]
  show answer (get >>= _) s = _
  rw [answer_get_bind]
  show answer (get >>= _) s = _
  rw [answer_get_bind, Settings.directories_eq_error.2 ⟨⟨t, ht, hhome⟩, rfl⟩]
  rfl

theorem answer_run_of_prepared (h : Prepared reader s.disk r root dirs) : ∃ start trace,
    answer (r.run reader) s = answer (r.task.answer root dirs >>= r.conclude start trace) s := by
  obtain ⟨settings, hload, hdirs⟩ := h.directories
  refine ⟨s.log.size, r.shared.trace.getD settings.trace, ?_⟩
  rw [answer_run_of_inWorkspace h.inWorkspace, hload]
  show answer (get >>= _) s = _
  rw [answer_get_bind]
  show answer (get >>= _) s = _
  rw [answer_get_bind, hdirs]
  rfl

theorem answer_run_of_fault {fault : Fault} (h : Prepared reader s.disk r root dirs)
    (htask : answer (r.task.answer root dirs) s = .error fault) : answer (r.run reader) s = .error fault := by
  obtain ⟨start, trace, hrun⟩ := answer_run_of_prepared h
  rw [hrun, answer_bind, htask]
  rfl

theorem answer_run_of_complaint {complaint : String} (h : Prepared reader s.disk r root dirs)
    (htask : answer (r.task.answer root dirs) s = .ok (.error complaint)) :
    ∃ log, answer (r.run reader) s = .ok (complain log complaint) := by
  obtain ⟨start, trace, hrun⟩ := answer_run_of_prepared h
  rw [hrun, answer_bind, htask]
  exact ⟨_, rfl⟩

theorem answer_run_of_text {text : Text} (h : Prepared reader s.disk r root dirs)
    (htask : answer (r.task.answer root dirs) s = .ok (.ok text)) :
    ∃ log, answer (r.run reader) s = answer (deliver r.shared.output log text) (after (r.task.answer root dirs) s) := by
  obtain ⟨start, trace, hrun⟩ := answer_run_of_prepared h
  rw [hrun, answer_bind, htask]
  exact ⟨_, rfl⟩

end Preparing

/-! ### Looking something up in a file -/

/-- The place that a task asks about. -/
def Task.lookup? : Task → Option Lookup
  | .definition l => some l
  | .completion l => some l
  | .graph _ => none

theorem steady_resolve (t : Text) : Steady (resolve t) := by
  refine steady_get_bind (fun s => ?_) fun h => by rw [h.1]
  cases s.disk.resolve (Path.ofText t) with
  | ok p => exact steady_pure p
  | error cause => exact steady_throw _

section Lookups

variable {s : Session} {l : Lookup} {root file : Path} {f : Except String Document → Query (Except String Text)}

theorem steady_openDocument (l : Lookup) (root : Path) : Steady (openDocument l root) := by
  refine (steady_resolve l.file).bind fun file => steady_get_bind (fun s => ?_) fun h => by rw [h.1]
  cases s.disk.readText file <;> exact steady_pure _

theorem answer_openDocument_of_null (h : (Path.ofText l.file).hasNull = true) :
    answer (openDocument l root) s = .error (.read .nullCharacter) := by
  unfold openDocument
  rw [answer_bind, answer_resolve, resolve_eq_error.2 ⟨h, rfl⟩]
  rfl

theorem answer_openDocument (hfile : s.disk.resolve (Path.ofText l.file) = .ok file) :
    answer (openDocument l root) s = .ok (match s.disk.readText file with
      | .ok content => .ok ⟨file, content, some root⟩
      | .error cause => .error s!"Error reading '{Text.str l.file}': {cause.message}") := by
  unfold openDocument
  rw [answer_bind, answer_resolve, after_resolve, hfile]
  show answer (get >>= _) s = _
  rw [answer_get_bind]
  cases s.disk.readText file <;> rfl

/-- A task that asks about a place opens its file and then always answers. -/
theorem exists_opening {task : Task} (h : task.lookup? = some l) (root : Path) (dirs : List Path) :
    ∃ f : Except String Document → Query (Except String Text), task.answer root dirs = openDocument l root >>= f ∧
      (∀ complaint, f (.error complaint) = pure (.error complaint)) ∧ (∀ document, Steady (f (.ok document))) ∧
      ∀ document s, ∃ text, answer (f (.ok document)) s = .ok (.ok text) := by
  cases task with
  | graph sv => cases h
  | definition l' =>
    obtain rfl := Option.some.inj h
    refine ⟨_, rfl, fun _ => rfl, fun document => ?_, fun document s => ?_⟩
    · exact (Definition.steady_find dirs document _).bind fun _ =>
        steady_get_bind (fun _ => steady_pure _) fun h => by rw [h.1]
    · obtain ⟨found, hfound⟩ := Definition.exists_answer_find dirs document ⟨l'.line, l'.column⟩ s
      dsimp only
      rw [answer_bind, hfound]
      exact ⟨_, rfl⟩
  | completion l' =>
    obtain rfl := Option.some.inj h
    refine ⟨_, rfl, fun _ => rfl, fun document => ?_, fun document s => ?_⟩
    · exact (Completion.steady_candidates dirs document _).bind fun _ => steady_pure _
    · obtain ⟨found, hfound⟩ := Completion.exists_answer_candidates dirs document ⟨l'.line, l'.column⟩ s
      dsimp only
      rw [answer_bind, hfound]
      exact ⟨_, rfl⟩

end Lookups

/-! ### Surveying a workspace -/

/-- The graph of a survey; faults come out. -/
def Survey.scan (sv : Survey) (dir : Path) (dirs : List Path) : Query ModuleGraph := do
  ModuleGraph.build dir (← (given? sv.entry).mapM resolve) sv.options dirs

section Surveys

variable {s : Session} {sv : Survey} {root dir : Path} {dirs : List Path}

theorem steady_scan (sv : Survey) (dir : Path) (dirs : List Path) : Steady (sv.scan dir dirs) := by
  refine Steady.bind ?_ fun _ => ModuleGraph.steady_build
  cases given? sv.entry with
  | none => exact steady_pure none
  | some t => exact (steady_resolve t).map some

theorem surveyGraph_eq (sv : Survey) (dir : Path) (dirs : List Path) : surveyGraph sv dir dirs =
    tryCatch (sv.scan dir dirs >>= fun g => pure (.ok g))
      fun fault => return .error s!"Error scanning workspace: {fault.message}" := by
  unfold surveyGraph Survey.scan
  rw [bind_assoc]

theorem steady_surveyGraph (sv : Survey) (dir : Path) (dirs : List Path) : Steady (surveyGraph sv dir dirs) := by
  rw [surveyGraph_eq]
  exact ((steady_scan sv dir dirs).bind fun _ => steady_pure _).tryCatch fun _ => steady_pure _

theorem answer_surveyGraph_of_fault {fault : Fault} (h : answer (sv.scan dir dirs) s = .error fault) :
    answer (surveyGraph sv dir dirs) s = .ok (.error s!"Error scanning workspace: {fault.message}") := by
  rw [surveyGraph_eq, answer_tryCatch, answer_bind, h]
  rfl

theorem answer_surveyGraph_of_graph {g : ModuleGraph} (h : answer (sv.scan dir dirs) s = .ok g) :
    answer (surveyGraph sv dir dirs) s = .ok (.ok g) := by
  rw [surveyGraph_eq, answer_tryCatch, answer_bind, h]
  rfl

theorem answer_survey_of_null (h : GivenNull (given? sv.scanRoot)) :
    answer (survey sv root dirs) s = .error (.read .nullCharacter) := by
  obtain ⟨t, ht, hnull⟩ := h
  unfold survey
  rw [ht]
  show answer (resolve t >>= _) s = _
  rw [answer_bind, answer_resolve, resolve_eq_error.2 ⟨hnull, rfl⟩]
  rfl

/-- Going on with a path that is given, or else with another. -/
theorem answer_resolvingOr {β : Type} {k : Path → Query β} {t : Option Text} {other : Path}
    (h : resolveOr s.disk other t = .ok dir) :
    answer (match given? t with
      | some t => resolve t >>= k
      | none => pure other >>= k) s = answer (k dir) s := by
  unfold resolveOr at h
  cases ht : given? t with
  | none =>
    rw [ht] at h
    obtain rfl := Except.ok.inj h
    rfl
  | some u =>
    simp only [ht] at h ⊢
    rw [answer_bind, answer_resolve, after_resolve, h]
    rfl

theorem answer_survey_of_refused {cause : ReadFault} (hdir : resolveOr s.disk root sv.scanRoot = .ok dir)
    (h : s.disk.askDir dir = .error cause) : answer (survey sv root dirs) s = .error (.read cause) := by
  unfold survey
  exact (answer_resolvingOr hdir).trans (answer_askDir_bind_of_error h _)

theorem answer_survey_of_not_isDir (hdir : resolveOr s.disk root sv.scanRoot = .ok dir)
    (h : s.disk.askDir dir = .ok false) : answer (survey sv root dirs) s = .ok (.error (notDirectory sv.scanRoot)) := by
  unfold survey
  refine (answer_resolvingOr hdir).trans ?_
  rw [answer_askDir_bind h]
  rfl

theorem answer_survey_of_fault {fault : Fault} (hdir : resolveOr s.disk root sv.scanRoot = .ok dir)
    (h : s.disk.askDir dir = .ok true) (hscan : answer (sv.scan dir dirs) s = .error fault) :
    answer (survey sv root dirs) s = .ok (.error s!"Error scanning workspace: {fault.message}") := by
  unfold survey
  refine (answer_resolvingOr hdir).trans ?_
  rw [answer_askDir_bind h]
  show answer (surveyGraph sv dir dirs >>= _) s = _
  rw [answer_bind, answer_surveyGraph_of_fault hscan]
  rfl

theorem exists_answer_survey {g : ModuleGraph} (hdir : resolveOr s.disk root sv.scanRoot = .ok dir)
    (h : s.disk.askDir dir = .ok true) (hscan : answer (sv.scan dir dirs) s = .ok g) :
    ∃ text, answer (survey sv root dirs) s = .ok (.ok text) := by
  unfold survey
  refine Exists.imp (fun text htext => (answer_resolvingOr hdir).trans htext) ?_
  rw [answer_askDir_bind h]
  simp only [Bool.not_true, Bool.false_eq_true, reduceIte]
  rw [answer_bind, answer_surveyGraph_of_graph hscan]
  exact ⟨_, rfl⟩

theorem steady_resolvingOr {β : Type} {k : Path → Query β} {t : Option Text} {other : Path} (hk : ∀ p, Steady (k p)) :
    Steady (match given? t with
      | some t => resolve t >>= k
      | none => pure other >>= k) := by
  cases given? t with
  | none => exact (steady_pure other).bind hk
  | some u => exact (steady_resolve u).bind hk

theorem steady_survey (sv : Survey) (root : Path) (dirs : List Path) : Steady (survey sv root dirs) := by
  unfold survey
  refine steady_resolvingOr fun scanRoot => (steady_askDir scanRoot).bind fun _ => Steady.ite (steady_pure _)
    ((steady_surveyGraph sv scanRoot dirs).bind fun found => ?_)
  cases found with
  | error complaint => exact steady_pure _
  | ok g => exact steady_get_bind (fun _ => steady_pure _) fun h => by rw [h.1]

end Surveys

/-! ### Delivering -/

theorem answer_deliver_of_error {s : Session} {output : Option Text} {t log text : Text} {cause : ReadFault}
    (ht : given? output = some t) (h : s.disk.write (Path.ofText t) (line text) = .error cause) :
    answer (deliver output log text) s = .ok (complain log s!"Error writing output: {cause.message}") := by
  unfold deliver
  rw [ht]
  show answer (get >>= _) s = _
  rw [answer_get_bind, h]
  rfl

theorem exists_answer_deliver {s : Session} {output : Option Text} {log text : Text}
    (h : ∀ t cause, given? output = some t → s.disk.write (Path.ofText t) (line text) ≠ .error cause) :
    ∃ outcome, answer (deliver output log text) s = .ok outcome ∧ outcome.code = 0 := by
  unfold deliver
  cases ht : given? output with
  | none => exact ⟨_, rfl, rfl⟩
  | some t =>
    show ∃ outcome : Outcome, answer (get >>= _) s = .ok outcome ∧ outcome.code = 0
    rw [answer_get_bind]
    cases hw : s.disk.write (Path.ofText t) (line text) with
    | error cause => exact absurd hw (h t cause ht)
    | ok written => exact ⟨_, rfl, rfl⟩

/-! ## The ends of a request -/

/-- The path that a task names first. -/
def Task.operand? : Task → Option Text
  | .definition l => some l.file
  | .completion l => some l.file
  | .graph sv => given? sv.scanRoot

/-- A task asks about a place in the file that it names, or surveys. -/
theorem Task.asks_or_surveys (task : Task) :
    (∃ l, task.lookup? = some l ∧ task.operand? = some l.file) ∨ ∃ sv, task = .graph sv := by
  cases task with
  | definition l => exact Or.inl ⟨l, rfl, rfl⟩
  | completion l => exact Or.inl ⟨l, rfl, rfl⟩
  | graph sv => exact Or.inr ⟨sv, rfl⟩

/-- The faults that come out of a task. -/
inductive TaskEscapes (d : Disk) (root : Path) (task : Task) : Fault → Prop
  -- no disk can hold the path that the task names
  | operand (hnull : GivenNull task.operand?) : TaskEscapes d root task (.read .nullCharacter)
  -- it is not told whether the path that is to be surveyed is a directory
  | scanRoot {sv : Survey} {dir : Path} {cause : ReadFault} (hsv : task = .graph sv)
      (hdir : resolveOr d root sv.scanRoot = .ok dir) (hask : d.askDir dir = .error cause) :
      TaskEscapes d root task (.read cause)

/-- The faults that come out of a request. -/
inductive Escapes (reader : Data.Reader) (d : Disk) (r : Request) : Fault → Prop
  -- no disk can hold the root
  | root (hnull : GivenNull (given? r.shared.root)) : Escapes reader d r (.read .nullCharacter)
  -- it is not told whether the root is a directory
  | refusedRoot {root : Path} {cause : ReadFault}
      (hroot : resolveOr d (d.canonical d.cwd) r.shared.root = .ok root) (hask : d.askDir root = .error cause) :
      Escapes reader d r (.read cause)
  -- the settings file is at fault, or its reader
  | settings {root : Path} {fault : Fault} (h : InWorkspace d r root)
      (hload : Settings.LoadEscapes reader d r.config? (some root) fault) : Escapes reader d r fault
  -- an include path starts in a home that is not known
  | includePath {root : Path} {settings : Settings} {t : Text} (h : InWorkspace d r root)
      (hload : Settings.load reader d r.config? (some root) = .ok settings) (ht : t ∈ settings.includePaths)
      (hhome : Settings.IsHomeless d (Path.ofText t)) : Escapes reader d r .homeUnknown
  | task {root : Path} {dirs : List Path} {fault : Fault} (h : Prepared reader d r root dirs)
      (htask : TaskEscapes d root r.task fault) : Escapes reader d r fault

/-- The failures that a task complains about. -/
inductive TaskComplains (s : Session) (root : Path) (dirs : List Path) (task : Task) : String → Prop
  | document {l : Lookup} {file : Path} {cause : ReadFault} (hl : task.lookup? = some l)
      (hfile : s.disk.resolve (Path.ofText l.file) = .ok file) (hread : s.disk.readText file = .error cause) :
      TaskComplains s root dirs task s!"Error reading '{Text.str l.file}': {cause.message}"
  | scanRoot {sv : Survey} {dir : Path} (hsv : task = .graph sv) (hdir : resolveOr s.disk root sv.scanRoot = .ok dir)
      (h : s.disk.askDir dir = .ok false) : TaskComplains s root dirs task (notDirectory sv.scanRoot)
  | scan {sv : Survey} {dir : Path} {fault : Fault} (hsv : task = .graph sv)
      (hdir : resolveOr s.disk root sv.scanRoot = .ok dir) (h : s.disk.askDir dir = .ok true)
      (hscan : answer (sv.scan dir dirs) s = .error fault) :
      TaskComplains s root dirs task s!"Error scanning workspace: {fault.message}"

/-- The failures that a request complains about. -/
inductive Complains (reader : Data.Reader) (s : Session) (r : Request) : String → Prop
  | root {root : Path} (hroot : resolveOr s.disk (s.disk.canonical s.disk.cwd) r.shared.root = .ok root)
      (h : s.disk.askDir root = .ok false) : Complains reader s r (notDirectory r.shared.root)
  | settings {root : Path} {cause : SettingsFault} (h : InWorkspace s.disk r root)
      (hload : Settings.load reader s.disk r.config? (some root) = .error (.settings cause)) :
      Complains reader s r s!"Error: {cause.message}"
  | task {root : Path} {dirs : List Path} {complaint : String} (h : Prepared reader s.disk r root dirs)
      (htask : TaskComplains s root dirs r.task complaint) : Complains reader s r complaint
  | output {root : Path} {dirs : List Path} {text t : Text} {cause : ReadFault} (h : Prepared reader s.disk r root dirs)
      (htask : answer (r.task.answer root dirs) s = .ok (.ok text)) (ht : given? r.shared.output = some t)
      (hwrite : s.disk.write (Path.ofText t) (line text) = .error cause) :
      Complains reader s r s!"Error writing output: {cause.message}"

section Ends

variable {reader : Data.Reader} {s : Session} {r : Request} {root : Path} {dirs : List Path} {task : Task}

theorem steady_taskAnswer (root : Path) (dirs : List Path) (task : Task) : Steady (task.answer root dirs) := by
  obtain ⟨l, hl, -⟩ | ⟨sv, rfl⟩ := task.asks_or_surveys
  · obtain ⟨f, hf, hcomplaint, hsteady, -⟩ := exists_opening hl root dirs
    rw [hf]
    refine (steady_openDocument l root).bind fun opened => ?_
    cases opened with
    | error complaint => rw [hcomplaint]; exact steady_pure _
    | ok document => exact hsteady document
  · exact steady_survey sv root dirs

theorem answer_task_of_escapes {fault : Fault} (h : TaskEscapes s.disk root task fault) :
    answer (task.answer root dirs) s = .error fault := by
  cases h with
  | operand h =>
    obtain ⟨l, hl, hoperand⟩ | ⟨sv, rfl⟩ := task.asks_or_surveys
    · obtain ⟨t, ht, hnull⟩ := h
      obtain rfl := Option.some.inj (hoperand.symm.trans ht)
      obtain ⟨f, hf, -, -, -⟩ := exists_opening hl root dirs
      rw [hf, answer_bind, answer_openDocument_of_null hnull]
      rfl
    · exact answer_survey_of_null h
  | scanRoot hsv hdir hask =>
    subst hsv
    exact answer_survey_of_refused hdir hask

theorem answer_task_of_complains {complaint : String} (h : TaskComplains s root dirs task complaint) :
    answer (task.answer root dirs) s = .ok (.error complaint) := by
  cases h with
  | document hl hfile hread =>
    obtain ⟨f, hf, hcomplaint, -, -⟩ := exists_opening hl root dirs
    rw [hf, answer_bind, answer_openDocument hfile, hread, ok_bind, hcomplaint]
    rfl
  | scanRoot hsv hdir h =>
    subst hsv
    exact answer_survey_of_not_isDir hdir h
  | scan hsv hdir h hscan =>
    subst hsv
    exact answer_survey_of_fault hdir h hscan

/-- A task lets a fault out, complains, or answers. -/
theorem task_ends (s : Session) (root : Path) (dirs : List Path) (task : Task) :
    (∃ fault, TaskEscapes s.disk root task fault) ∨ (∃ complaint, TaskComplains s root dirs task complaint) ∨
      ∃ text, answer (task.answer root dirs) s = .ok (.ok text) := by
  by_cases hnull : GivenNull task.operand?
  · exact Or.inl ⟨_, .operand hnull⟩
  obtain ⟨l, hl, hoperand⟩ | ⟨sv, rfl⟩ := task.asks_or_surveys
  · right
    cases hfile : s.disk.resolve (Path.ofText l.file) with
    | error cause => exact absurd ⟨l.file, hoperand, (resolve_eq_error.1 hfile).1⟩ hnull
    | ok file =>
      cases hread : s.disk.readText file with
      | error cause => exact Or.inl ⟨_, .document hl hfile hread⟩
      | ok content =>
        obtain ⟨f, hf, -, -, hanswers⟩ := exists_opening hl root dirs
        rw [hf, answer_bind, answer_openDocument hfile, hread]
        exact Or.inr (hanswers _ _)
  · cases hdir : resolveOr s.disk root sv.scanRoot with
    | error cause => exact absurd (resolveOr_eq_error.1 hdir).1 hnull
    | ok dir =>
      rcases hask : s.disk.askDir dir with cause | _ | _
      · exact Or.inl ⟨_, .scanRoot rfl hdir hask⟩
      · exact Or.inr (Or.inl ⟨_, .scanRoot rfl hdir hask⟩)
      · right
        cases hscan : answer (sv.scan dir dirs) s with
        | error fault => exact Or.inl ⟨_, .scan rfl hdir hask hscan⟩
        | ok g => exact Or.inr (exists_answer_survey hdir hask hscan)

theorem answer_run_of_escapes {fault : Fault} (h : Escapes reader s.disk r fault) :
    answer (r.run reader) s = .error fault := by
  cases h with
  | root hnull => exact answer_run_of_null hnull
  | refusedRoot hroot hask => exact answer_run_of_refused hroot hask
  | settings h hload => exact answer_run_of_load h hload
  | includePath h hload ht hhome => exact answer_run_of_homeless h hload ht hhome
  | task h htask => exact answer_run_of_fault h (answer_task_of_escapes htask)

theorem answer_run_of_complains {complaint : String} (h : Complains reader s r complaint) :
    ∃ log, answer (r.run reader) s = .ok (complain log complaint) := by
  cases h with
  | root hroot h => exact ⟨[], answer_run_of_not_isDir hroot h⟩
  | settings h hload =>
    rw [answer_run_of_inWorkspace h, hload]
    exact ⟨[], rfl⟩
  | task h htask => exact answer_run_of_complaint h (answer_task_of_complains htask)
  | output h htask ht hwrite =>
    obtain ⟨log, hlog⟩ := answer_run_of_text h htask
    refine ⟨log, hlog.trans (answer_deliver_of_error ht ?_)⟩
    rw [((steady_taskAnswer _ _ _).after_equiv s).1]
    exact hwrite

/-- A request that is prepared lets a fault out, complains, or answers. -/
theorem run_ends_of_prepared (h : Prepared reader s.disk r root dirs) : (∃ fault, Escapes reader s.disk r fault) ∨
    (∃ complaint, Complains reader s r complaint) ∨
      ∃ outcome, answer (r.run reader) s = .ok outcome ∧ outcome.code = 0 := by
  rcases task_ends s root dirs r.task with ⟨fault, hfault⟩ | ⟨complaint, hcomplaint⟩ | ⟨text, htext⟩
  · exact Or.inl ⟨fault, .task h hfault⟩
  · exact Or.inr (Or.inl ⟨complaint, .task h hcomplaint⟩)
  right
  by_cases hwrite : ∃ t cause, given? r.shared.output = some t ∧
      s.disk.write (Path.ofText t) (line text) = .error cause
  · obtain ⟨t, cause, ht, hwrite⟩ := hwrite
    exact Or.inl ⟨_, .output h htext ht hwrite⟩
  · right
    obtain ⟨log, hlog⟩ := answer_run_of_text h htext
    rw [hlog]
    refine exists_answer_deliver fun t cause ht hw => hwrite ⟨t, cause, ht, ?_⟩
    rw [← ((steady_taskAnswer root dirs r.task).after_equiv s).1]
    exact hw

theorem run_ends (reader : Data.Reader) (s : Session) (r : Request) : (∃ fault, Escapes reader s.disk r fault) ∨
    (∃ complaint, Complains reader s r complaint) ∨
      ∃ outcome, answer (r.run reader) s = .ok outcome ∧ outcome.code = 0 := by
  cases hroot : resolveOr s.disk (s.disk.canonical s.disk.cwd) r.shared.root with
  | error cause => exact Or.inl ⟨_, .root (resolveOr_eq_error.1 hroot).1⟩
  | ok root =>
    rcases hask : s.disk.askDir root with cause | _ | _
    · exact Or.inl ⟨_, .refusedRoot hroot hask⟩
    · exact Or.inr (Or.inl ⟨_, .root hroot hask⟩)
    · have h : InWorkspace s.disk r root := ⟨hroot, hask⟩
      cases hload : Settings.load reader s.disk r.config? (some root) with
      | error fault =>
        rcases Settings.load_error_cases hload with ⟨cause, rfl⟩ | hescapes
        · exact Or.inr (Or.inl ⟨_, .settings h hload⟩)
        · exact Or.inl ⟨fault, .settings h hescapes⟩
      | ok settings =>
        cases hdirs : settings.directories s.disk root with
        | error fault =>
          obtain ⟨⟨t, ht, hhome⟩, -⟩ := Settings.directories_eq_error.1 hdirs
          exact Or.inl ⟨_, .includePath h hload ht hhome⟩
        | ok dirs => exact run_ends_of_prepared ⟨h, settings, hload, hdirs⟩

end Ends

namespace Misconfigured

/-- A disk with nothing but a settings file. -/
def disk (settings : List UInt8) : Disk :=
  (Disk.empty ⟨.root, []⟩ ⟨.root, []⟩).insert [".sassref.yaml".toList] (.file settings)

def args : List Text := ["graph".toList]

def request : Request := ⟨.default, .graph ⟨none, none, false, false, [], none, false, false⟩⟩

theorem accepted : Request.ofArguments args = .ok request := rfl

/-- A reader that finds a trace level that there is not. -/
def reader : Data.Reader := fun _ => .ok (.map [(.text "trace".toList, .text "loud".toList)])

def badTrace : SettingsFault := .badTrace "loud".toList

theorem inWorkspace (settings : List UInt8) : InWorkspace (disk settings) request ⟨.root, []⟩ := ⟨rfl, rfl⟩

/-- The fault of a byte that starts no character. -/
def badByte : Fault := .read (.undecodable ⟨0xff, 0, 1, .start⟩)

theorem escapes (reader : Data.Reader) : Escapes reader (disk [0xff]) request badByte := by
  have hfile : Settings.source? (disk [0xff]) request.config? (some ⟨.root, []⟩) =
      .ok (some ⟨.root, [".sassref.yaml".toList]⟩) := by decide +kernel
  exact .settings (inWorkspace _) (.text hfile (by decide +kernel) rfl)

end Misconfigured

end CommandLine

end SassModules
