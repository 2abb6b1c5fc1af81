import SassModules.Proofs.Precedence
import SassModules.Proofs.Scanning

/-!
# The graph of a workspace

The scan keeps a list of files that are to be scanned and the files that were. One step drops the files in front that
were scanned before and scans the next one, and what it loads is put at the end of the list. `Progress` says what every
step keeps: each file is one that the scan has to meet, and what a scanned file leads to is scanned or waits. So the scan
ends with the least set of files that holds the first ones and what they lead to (`Progress.eq_scanned`), in as many
steps as there are files and two spellings of each (`addPending_ends`), and the graph is the graph of that set
(`build_gives_module_graph`); unless one of these files is at fault, which ends the scan.
-/

namespace SassModules.ModuleGraph

open Session

/-! ## The work list -/

section WorkList

variable (w : Workspace) (s : Session) (follow : Bool)

/-- The second file is scanned on account of the first. -/
def Follows (file target : Path) : Prop := follow = true ∧ Loads w s file target

/-- The files that a scan has to meet. -/
def Scanned (start : List Path) : Set Path := {f | ∃ e ∈ start, Relation.ReflTransGen (Follows w s follow) e f}

/-- A state of the scan: the files that were scanned, and those that wait. -/
structure Progress (start scanned pending : List Path) : Prop where
  nodup : scanned.Nodup
  met : ∀ f ∈ scanned, f ∈ Scanned w s follow start
  waits : ∀ f ∈ pending, f ∈ Scanned w s follow start
  starts : ∀ f ∈ start, f ∈ scanned ∨ f ∈ pending
  closed : ∀ f ∈ scanned, ∀ r, Follows w s follow f r → r ∈ scanned ∨ r ∈ pending

/-- The files that wait on account of a file, unless they were scanned. -/
def newFiles (scanned : List Path) (file : Path) : List Path :=
  if follow then (loadedBy w s file).filter fun t => !(file :: scanned).contains t else []

variable {w s follow} {start scanned pending rest : List Path} {file target : Path}

theorem mem_newFiles : target ∈ newFiles w s follow scanned file ↔
    Follows w s follow file target ∧ target ≠ file ∧ target ∉ scanned := by
  unfold newFiles Follows
  cases follow <;> simp [mem_loadedBy]

namespace Progress

theorem ofStart (start : List Path) : Progress w s follow start [] start where
  nodup := List.nodup_nil
  met := nofun
  waits := fun f hf => ⟨f, hf, .refl⟩
  starts := fun _ hf => Or.inr hf
  closed := nofun

/-- Files that were scanned before are dropped. -/
theorem skip (h : Progress w s follow start scanned pending) :
    Progress w s follow start scanned (pending.dropWhile scanned.contains) := by
  have hkept : ∀ f, f ∈ scanned ∨ f ∈ pending → f ∈ scanned ∨ f ∈ pending.dropWhile scanned.contains := by
    rintro f (hf | hf)
    · exact Or.inl hf
    · rw [← List.takeWhile_append_dropWhile (p := scanned.contains) (l := pending)] at hf
      rcases List.mem_append.1 hf with hf | hf
      · exact Or.inl (by simpa using List.mem_takeWhile_imp hf)
      · exact Or.inr hf
  exact ⟨h.nodup, h.met, fun f hf => h.waits f ((List.dropWhile_sublist _).subset hf),
    fun f hf => hkept f (h.starts f hf), fun f hf r hr => hkept r (h.closed f hf r hr)⟩

/-- A file is scanned, and what it leads to waits. -/
theorem scan (h : Progress w s follow start scanned (file :: rest)) (hnew : file ∉ scanned) :
    Progress w s follow start (file :: scanned) (rest ++ newFiles w s follow scanned file) := by
  have hfile : file ∈ Scanned w s follow start := h.waits file List.mem_cons_self
  have hmoved : ∀ f, f ∈ scanned ∨ f ∈ file :: rest →
      f ∈ file :: scanned ∨ f ∈ rest ++ newFiles w s follow scanned file := by
    rintro f (hf | hf)
    · exact Or.inl (List.mem_cons_of_mem _ hf)
    · rcases List.mem_cons.1 hf with rfl | hf
      · exact Or.inl List.mem_cons_self
      · exact Or.inr (List.mem_append_left _ hf)
  refine ⟨List.nodup_cons.2 ⟨hnew, h.nodup⟩, ?_, ?_, fun f hf => hmoved f (h.starts f hf), ?_⟩
  · intro f hf
    rcases List.mem_cons.1 hf with rfl | hf
    · exact hfile
    · exact h.met f hf
  · intro f hf
    rcases List.mem_append.1 hf with hf | hf
    · exact h.waits f (List.mem_cons_of_mem _ hf)
    · obtain ⟨e, he, hreach⟩ := hfile
      exact ⟨e, he, hreach.tail (mem_newFiles.1 hf).1⟩
  · intro f hf r hr
    rcases List.mem_cons.1 hf with rfl | hf
    · by_cases hr' : r ∈ f :: scanned
      · exact Or.inl hr'
      · obtain ⟨hne, hmem⟩ := not_or.1 (mt List.mem_cons.2 hr')
        exact Or.inr (List.mem_append_right _ (mem_newFiles.2 ⟨hr, hne, hmem⟩))
    · exact hmoved r (h.closed f hf r hr)

/-- When no file waits, the scanned files are those that the scan has to meet. -/
theorem eq_scanned (h : Progress w s follow start scanned []) : {f | f ∈ scanned} = Scanned w s follow start := by
  ext f
  constructor
  · exact h.met f
  · rintro ⟨e, he, hreach⟩
    induction hreach with
    | refl => exact (h.starts e he).resolve_right List.not_mem_nil
    | tail _ hstep ih => exact (h.closed _ ih _ hstep).resolve_right List.not_mem_nil

/-- The scanned files are among the first ones and the plain paths of regular files. -/
theorem length_le (h : Progress w s follow start scanned pending)
    (hknown : ∀ f ∈ Scanned w s follow start, s.disk.Knows start f) :
    scanned.length ≤ start.length + 2 * s.disk.fileCount := by
  have hle := Disk.length_le_files h.nodup fun f hf => hknown f (h.met f hf)
  have hcard := s.disk.card_files_le
  omega

end Progress

theorem steady_addPending : ∀ (fuel : Nat) (scanned pending : List Path) (g : ModuleGraph),
    Steady (addPending w follow fuel scanned pending g)
  | 0, _, _, _ => steady_throw _
  | fuel + 1, scanned, pending, g => by
    unfold addPending
    cases pending.dropWhile scanned.contains with
    | nil => exact steady_pure g
    | cons file rest => exact (steady_addFile g).bind fun _ => steady_addPending fuel _ _ _

variable (w s) in
/-- Scanning one of the files ends with the fault. -/
def FaultsAmong (files : Set Path) (e : Fault) : Prop := ∃ f ∈ files, Faults w s f e

/-- A scan that has fuel for every file that it may meet ends: with the graph of the files that it has to meet, or with
the fault of one of them. -/
theorem addPending_ends (hknown : ∀ f ∈ Scanned w s follow start, s.disk.Knows start f) :
    ∀ (fuel : Nat) (scanned pending : List Path), Progress w s follow start scanned pending →
      (∀ e, ¬ FaultsAmong w s {f | f ∈ scanned} e) → start.length + 2 * s.disk.fileCount < fuel + scanned.length →
      (∃ files, answer (addPending w follow fuel scanned pending (graphOf w s scanned)) s = .ok (graphOf w s files) ∧
        Progress w s follow start files [] ∧ ∀ e, ¬ FaultsAmong w s {f | f ∈ files} e) ∨
      ∃ e, answer (addPending w follow fuel scanned pending (graphOf w s scanned)) s = .error e ∧
        FaultsAmong w s (Scanned w s follow start) e
  | 0, scanned, _, hprogress, _, hfuel => by
    have hle := hprogress.length_le hknown
    omega
  | fuel + 1, scanned, pending, hprogress, hclean, hfuel => by
    have hskip := hprogress.skip
    unfold addPending
    cases hp : pending.dropWhile scanned.contains with
    | nil => exact Or.inl ⟨scanned, rfl, hp ▸ hskip, hclean⟩
    | cons file rest =>
      rw [hp] at hskip
      have hnew : file ∉ scanned := by
        have hhead := List.head?_dropWhile_not scanned.contains pending
        rw [hp] at hhead
        simpa using hhead
      rcases answer_addFile w s file (graphOf w s scanned) with ⟨hstep, hfile⟩ | ⟨e, he, hfault⟩
      · have hrun : answer (addFile w file (graphOf w s scanned) >>= fun r => addPending w follow fuel (file :: scanned)
            (rest ++ if follow then r.2.filter fun t => !(file :: scanned).contains t else []) r.1) s =
            answer (addPending w follow fuel (file :: scanned) (rest ++ newFiles w s follow scanned file)
              (graphOf w s (file :: scanned))) s :=
          (steady_addFile _).answer_bind_ok hstep (steady_addPending fuel _ _ _)
        have hclean' : ∀ e, ¬ FaultsAmong w s {f | f ∈ file :: scanned} e := by
          rintro e ⟨f, hf, hfault⟩
          rcases List.mem_cons.1 hf with rfl | hf
          · exact hfile e hfault
          · exact hclean e ⟨f, hf, hfault⟩
        have hrest := addPending_ends hknown fuel (file :: scanned) (rest ++ newFiles w s follow scanned file)
          (hskip.scan hnew) hclean' (by rw [List.length_cons]; omega)
        rw [← hrun] at hrest
        exact hrest
      · refine Or.inr ⟨e, ?_, file, hskip.waits file List.mem_cons_self, hfault⟩
        show answer (addFile w file (graphOf w s scanned) >>= _) s = _
        rw [answer_bind, he]
        rfl

/-- A file that the scan meets is one of the first ones, or a plain path of a regular file. -/
theorem known_of_mem_scanned (hinclude : ∀ dir ∈ w.includePaths, dir.isAbsolute = true)
    (hstart : follow = true → ∀ e ∈ start, e.isAbsolute = true) (h : file ∈ Scanned w s follow start) :
    s.disk.Knows start file ∧ (follow = true → file.isAbsolute = true) := by
  obtain ⟨e, he, hreach⟩ := h
  induction hreach with
  | refl => exact ⟨Or.inl he, fun hfollow => hstart hfollow e he⟩
  | tail _ hstep ih =>
    obtain ⟨hfollow, -, content, kind, modulePath, label, -, -, ht⟩ := hstep
    exact ⟨Workspace.knows_target? (ih.2 hfollow) hinclude ht _,
      fun _ => (Workspace.isPlain_target? (ih.2 hfollow) hinclude ht).absolute⟩

variable (w follow) in
/-- A scan ends with the graph of the files that it has to meet, when scanning none of them is a fault, and otherwise with
the fault of one of them. -/
theorem scan_ends (hinclude : ∀ dir ∈ w.includePaths, dir.isAbsolute = true)
    (hstart : follow = true → ∀ e ∈ start, e.isAbsolute = true) :
    (∃ g, answer (addPending w follow (start.length + scanLimit s.disk) [] start .empty) s = .ok g ∧
      IsGraphOf w s (Scanned w s follow start) g ∧ ∀ e, ¬ FaultsAmong w s (Scanned w s follow start) e) ∨
    ∃ e, answer (addPending w follow (start.length + scanLimit s.disk) [] start .empty) s = .error e ∧
      FaultsAmong w s (Scanned w s follow start) e := by
  have hknown : ∀ f ∈ Scanned w s follow start, s.disk.Knows start f := fun f hf =>
    (known_of_mem_scanned hinclude hstart hf).1
  have hfuel : start.length + 2 * s.disk.fileCount < start.length + scanLimit s.disk + ([] : List Path).length := by
    unfold scanLimit
    simp only [List.length_nil]
    omega
  have hclean : ∀ e, ¬ FaultsAmong w s {f | f ∈ ([] : List Path)} e := fun e ⟨f, hf, _⟩ => absurd hf List.not_mem_nil
  refine (addPending_ends hknown _ [] start (.ofStart start) hclean hfuel).imp_left ?_
  rintro ⟨files, hanswer, hend, hfiles⟩
  rw [hend.eq_scanned] at hfiles
  refine ⟨graphOf w s files, hanswer, ?_, hfiles⟩
  rw [← hend.eq_scanned]
  exact isGraphOf_graphOf files

end WorkList

/-! ## Where a scan starts -/

section Start

variable {s : Session} {root : Path} {entry : Option Path} {options : Discovery.Options} {includePaths : List Path}

/-- The workspace that module paths are resolved in during a scan. -/
def scanWorkspace (d : Disk) (root : Path) (includePaths : List Path) : Workspace :=
  ⟨(d.absolute root).normalize, includePaths⟩

/-- The files that a scan starts from: the entry, or the stylesheets below the root. -/
def startFiles (d : Disk) (root : Path) (entry : Option Path) (options : Discovery.Options) :
    Except ReadFault (List Path) :=
  match entry with
  | some e => .ok [(d.absolute e).normalize]
  | none => Discovery.stylesheets d options (d.absolute root).normalize

/-- The scan behind its start. -/
def buildFrom (w : Workspace) (follow : Bool) (limit : Nat) (start : List Path) : Query ModuleGraph := do
  let g ← addPending w follow (start.length + limit) [] start .empty
  report (.graphBuilt g.summary)
  return g

theorem steady_buildFrom (w : Workspace) (follow : Bool) (limit : Nat) (start : List Path) :
    Steady (buildFrom w follow limit start) :=
  (steady_addPending _ _ _ _).bind fun _ => (steady_report _).bind fun _ => steady_pure _

theorem answer_buildFrom (w : Workspace) (follow : Bool) (limit : Nat) (start : List Path) :
    answer (buildFrom w follow limit start) s =
      answer (addPending w follow (start.length + limit) [] start .empty) s := by
  rw [buildFrom, answer_bind]
  cases answer (addPending w follow (start.length + limit) [] start .empty) s <;> rfl

theorem answer_build_of_ok {start : List Path} (h : startFiles s.disk root entry options = .ok start) :
    answer (build root entry options includePaths) s =
      answer (addPending (scanWorkspace s.disk root includePaths) entry.isSome (start.length + scanLimit s.disk) [] start
        .empty) s := by
  rw [← answer_buildFrom]
  cases entry with
  | some e =>
    obtain rfl : [(s.disk.absolute e).normalize] = start := Except.ok.inj h
    unfold build
    rw [answer_get_bind]
    simp only [pure_bind]
    rfl
  | none =>
    unfold startFiles at h
    unfold build
    rw [answer_get_bind]
    simp only [h, pure_bind]
    rfl

theorem answer_build_of_error {cause : ReadFault} (h : startFiles s.disk root entry options = .error cause) :
    answer (build root entry options includePaths) s = .error (.read cause) := by
  cases entry with
  | some e => cases h
  | none =>
    unfold startFiles at h
    unfold build
    rw [answer_get_bind]
    simp only [h]
    rfl

theorem steady_build : Steady (build root entry options includePaths) := by
  refine steady_get_bind (fun s => ?_) fun h => by rw [h.1]
  cases entry with
  | some e => exact steady_buildFrom (scanWorkspace s.disk root includePaths) _ _ _
  | none =>
    cases h : Discovery.stylesheets s.disk options (scanWorkspace s.disk root includePaths).root with
    | ok files =>
      simp only [scanWorkspace] at h
      simp only [h]
      exact steady_buildFrom (scanWorkspace s.disk root includePaths) _ _ _
    | error cause =>
      simp only [scanWorkspace] at h
      simp only [h]
      exact (steady_throw _).bind fun _ => steady_buildFrom (scanWorkspace s.disk root includePaths) _ _ _

end Start

/-! ## The graph -/

section Results

/-- The set holds whatever a file in it loads. -/
def LoadsWithin (w : Workspace) (s : Session) (S : Set Path) : Prop := ∀ f ∈ S, ∀ r, Loads w s f r → r ∈ S

theorem isLeast_scanned (w : Workspace) (s : Session) (entry : Path) :
    IsLeast {S : Set Path | entry ∈ S ∧ LoadsWithin w s S} (Scanned w s true [entry]) := by
  refine ⟨⟨⟨entry, List.mem_singleton_self entry, .refl⟩, ?_⟩, ?_⟩
  · rintro f ⟨e, he, hreach⟩ r hr
    exact ⟨e, he, hreach.tail ⟨rfl, hr⟩⟩
  · rintro S ⟨hentry, hclosed⟩ f ⟨e, he, hreach⟩
    obtain rfl := List.mem_singleton.1 he
    induction hreach with
    | refl => exact hentry
    | tail _ hstep ih => exact hclosed _ ih _ hstep.2

theorem scanned_of_not_follow (w : Workspace) (s : Session) (start : List Path) :
    Scanned w s false start = {f | f ∈ start} := by
  ext f
  constructor
  · rintro ⟨e, he, hreach⟩
    cases hreach with
    | refl => exact he
    | tail _ hstep => exact absurd hstep.1 Bool.false_ne_true
  · exact fun hf => ⟨f, hf, .refl⟩

/-- The result of scanning a set of files: its graph, when scanning none of them is a fault, and otherwise the fault of one
of them. -/
def IsScanOf (w : Workspace) (s : Session) (scanned : Set Path) (result : Except Fault ModuleGraph) : Prop :=
  (∃ g, result = .ok g ∧ IsGraphOf w s scanned g ∧ ∀ e, ¬ FaultsAmong w s scanned e) ∨
    ∃ e, result = .error e ∧ FaultsAmong w s scanned e

/-- **The graph that is built is the module graph.** From an entry, the scanned files are the least set that holds the
normalized entry and whatever a file in it loads, however the files load each other. Without an entry, the scanned files
are the stylesheets that are discovered, and a fault of the discovery comes out. The graph of the scanned files is the
result, unless one of them is at fault: an entry whose path no disk can hold, or a file with a declaration that leads to a
manifest at fault. -/
theorem build_gives_module_graph (s : Session) (root : Path) (options : Discovery.Options) {includePaths : List Path}
    (hinclude : ∀ dir ∈ includePaths, dir.isAbsolute = true) :
    (∀ e entry, (s.disk.absolute e).normalize = entry → entry.isAbsolute = true →
      ∃ scanned, IsLeast {S | entry ∈ S ∧ LoadsWithin (scanWorkspace s.disk root includePaths) s S} scanned ∧
        IsScanOf (scanWorkspace s.disk root includePaths) s scanned
          (answer (build root (some e) options includePaths) s)) ∧
    (∀ files, Discovery.stylesheets s.disk options (scanWorkspace s.disk root includePaths).root = .ok files →
      IsScanOf (scanWorkspace s.disk root includePaths) s {f | f ∈ files}
        (answer (build root none options includePaths) s)) ∧
    ∀ cause, Discovery.stylesheets s.disk options (scanWorkspace s.disk root includePaths).root = .error cause →
      answer (build root none options includePaths) s = .error (.read cause) := by
  refine ⟨?_, ?_, fun cause hcause => answer_build_of_error hcause⟩
  · rintro e entry rfl habsolute
    have hstart : startFiles s.disk root (some e) options = .ok [(s.disk.absolute e).normalize] := rfl
    refine ⟨_, isLeast_scanned _ s _, ?_⟩
    rw [answer_build_of_ok hstart]
    exact scan_ends (scanWorkspace s.disk root includePaths) true hinclude
      fun _ f hf => List.mem_singleton.1 hf ▸ habsolute
  · intro files hfiles
    have hstart : startFiles s.disk root none options = .ok files := hfiles
    rw [answer_build_of_ok hstart, ← scanned_of_not_follow (scanWorkspace s.disk root includePaths) s files]
    exact scan_ends (scanWorkspace s.disk root includePaths) false hinclude fun h => absurd h Bool.false_ne_true

namespace Survey

/-- The text of `/main.scss`, with a declaration of each kind. -/
def text : Text :=
  "@use \"sass:math\";\n@use \"./none\";\n@use \"./main\";\n@use \"./a\" as ring;\n@forward \"./lock\" as l-*;".toList

def fileMain : Path := ⟨.root, ["main.scss".toList]⟩

def fileLocked : Path := ⟨.root, ["lock.scss".toList]⟩

/-- A disk with this file, with two files that load each other, and with a file that cannot be read. -/
def disk : Disk := (Ring.disk.insert fileMain.names (.file (Utf8.encode text))).insert fileLocked.names .lockedFile

/-- The path of the file with a detour. -/
def entry : Path := ⟨.root, ["x".toList, "..".toList, "main.scss".toList]⟩

def options : Discovery.Options := ⟨styleExtensions, [], none⟩

def graph : ModuleGraph where
  nodes := [Ring.fileA, Ring.fileB, fileLocked, fileMain]
  edges := [⟨Ring.fileA, Ring.fileB, .forward, some "b-".toList⟩, ⟨Ring.fileB, Ring.fileA, .forward, some "a-".toList⟩,
    ⟨fileMain, Ring.fileA, .use, some "ring".toList⟩, ⟨fileMain, fileLocked, .forward, some "l-".toList⟩]
  missing := [⟨fileMain, "./none".toList⟩]
  builtins := [⟨fileMain, "sass:math".toList⟩]

end Survey

open Survey in
/-- Around a cycle and past a file that cannot be read. -/
theorem build_gives_module_graph_ring :
    (∀ dir ∈ ([] : List Path), dir.isAbsolute = true) ∧ (disk.absolute entry).normalize = fileMain ∧
    fileMain.isAbsolute = true ∧
    answer (build ⟨.root, []⟩ (some entry) options []) (.start disk) = .ok graph ∧
    ∃ scanned, IsLeast {S | fileMain ∈ S ∧ LoadsWithin Ring.workspace (.start disk) S} scanned ∧
      IsScanOf Ring.workspace (.start disk) scanned (.ok graph) := by
  have hentry : answer (build ⟨.root, []⟩ (some entry) options []) (.start disk) = .ok graph := by decide +kernel
  obtain ⟨hfrom, -, -⟩ := build_gives_module_graph (.start disk) ⟨.root, []⟩ options
    (fun dir hdir => absurd hdir List.not_mem_nil)
  obtain ⟨scanned, hleast, hscan⟩ := hfrom entry fileMain rfl rfl
  rw [hentry] at hscan
  exact ⟨nofun, rfl, rfl, hentry, scanned, hleast, hscan⟩

open Workspace.Numbered in
/-- A package whose manifest is a number with one digit too many ends the scan of a file that loads it, where the file can
be read. -/
theorem build_long_number :
    (Session.start (disk 4301)).reads file = .ok text ∧
    answer (build workspace.root (some file) Survey.options []) (.start (disk 4301)) =
      .error (.longNumber (some 4301)) := by
  have hread : (Session.start (disk 4301)).reads file = .ok text := by decide +kernel
  have hscan : Loading.scan text = [⟨.use, "pkg".toList, some "pkg".toList⟩] := rfl
  have hresolve := answer_resolve (n := 4301) (by decide)
  have hstart : startFiles (disk 4301) workspace.root (some file) Survey.options = .ok [file] := rfl
  have hworkspace : scanWorkspace (Session.start (disk 4301)).disk workspace.root [] = workspace := rfl
  refine ⟨hread, ?_⟩
  rw [answer_build_of_ok hstart]
  rw [hworkspace, List.length_singleton, Nat.add_comm]
  show answer (addFile workspace file .empty >>= _) _ = _
  rw [answer_bind]
  rcases answer_addFile workspace (.start (disk 4301)) file .empty with ⟨-, hclean⟩ | ⟨e, he, hfault⟩
  · exact absurd (.manifest hread (Loading.mem_scan.1 (hscan ▸ List.mem_singleton_self _)) hresolve) (hclean _)
  · rw [he, error_bind]
    cases hfault with
    | path h =>
      rw [hread] at h
      cases h
    | manifest hread' hdeclares hresolve' =>
      obtain rfl := Except.ok.inj (hread.symm.trans hread')
      have hloading := Loading.mem_scan.2 hdeclares
      rw [hscan, List.mem_singleton] at hloading
      cases hloading
      rw [Except.error.inj (hresolve'.symm.trans hresolve)]

end Results

end SassModules.ModuleGraph
