import SassModules.Graph.Build
import SassModules.Proofs.Depth
import SassModules.Proofs.Ordered

/-!
# Scanning files into a graph

Scanning a file enters what it declares: each declaration of a readable file is a built-in module, a module path that
leads nowhere, or an edge to another file. With the session fixed this is a function of the file (`enterFile`), unless the
file is one that ends the scan (`Faults`): its path is none that a disk can hold, or a declaration of it leads to a
manifest at fault. The scan of a list of files in any order gives the graph with exactly their entries
(`isGraphOf_graphOf`).
-/

namespace SassModules.ModuleGraph

open Session

/-! ## Declarations -/

/-- A text loads a module path: by a `@use` under its alias, or by a `@forward` under its prefix, if it has one. -/
inductive Declares (content : Text) : EdgeKind → Text → Option Text → Prop where
  | use {i : Import} (h : i ∈ Import.scan content) : Declares content .use i.path (some i.aliasName)
  | forward {r : Reexport} (h : r ∈ Reexport.scan content) : Declares content .forward r.path r.pre

/-- What a text loads, in the order in which it is entered. -/
def Loading.scan (content : Text) : List Loading :=
  (Import.scan content).map (fun i => ⟨.use, i.path, some i.aliasName⟩) ++
    (Reexport.scan content).map (fun r => ⟨.forward, r.path, r.pre⟩)

theorem Loading.mem_scan {content modulePath : Text} {kind : EdgeKind} {label : Option Text} :
    ⟨kind, modulePath, label⟩ ∈ Loading.scan content ↔ Declares content kind modulePath label := by
  simp only [Loading.scan, List.mem_append, List.mem_map]
  constructor
  · rintro (⟨i, hi, h⟩ | ⟨r, hr, h⟩)
    · cases h
      exact .use hi
    · cases h
      exact .forward hr
  · intro h
    cases h with
    | use hi => exact Or.inl ⟨_, hi, rfl⟩
    | forward hr => exact Or.inr ⟨_, hr, rfl⟩

theorem answer_loadings (content : Text) (s : Session) : answer (loadings content) s = .ok (Loading.scan content) := rfl

theorem steady_loadings (content : Text) : Steady (loadings content) :=
  (steady_imports content).bind fun _ => (steady_reexports content).bind fun _ => steady_pure _

/-! ## One file -/

section File

variable (w : Workspace) (s : Session) (file : Path)

/-- The file that a declaration leads to, unless it leads back to the file that holds it. -/
def loaded? (l : Loading) : Option Path := (w.target? s file l.modulePath).filter (· != file)

/-- Enter a declaration of a file. -/
def enter (g : ModuleGraph) (l : Loading) : ModuleGraph :=
  if ModulePath.isBuiltin l.modulePath then g.addBuiltin ⟨file, l.modulePath⟩
  else match w.target? s file l.modulePath with
    | none => g.addMissing ⟨file, l.modulePath⟩
    | some target => if target = file then g else g.addEdge ⟨file, target, l.kind, l.label⟩

/-- What a file declares; nothing when it cannot be read. -/
def loadingsOf : List Loading :=
  match s.reads file with
  | .ok content => Loading.scan content
  | .error _ => []

/-- Enter a file and what it declares. -/
def enterFile (g : ModuleGraph) : ModuleGraph := (loadingsOf s file).foldl (enter w s file) (g.addNode file)

/-- The files that a file loads. -/
def loadedBy : List Path := (loadingsOf s file).filterMap (loaded? w s file)

variable {w s file}

/-- A built-in module has no file. -/
theorem target?_of_isBuiltin {modulePath : Text} (h : ModulePath.isBuiltin modulePath = true) :
    w.target? s file modulePath = none := by
  refine Workspace.target?_of_ok ?_
  rw [w.answer_resolve_eq_first, Workspace.tries, if_pos h]
  rfl

theorem not_isBuiltin_of_resolve {modulePath : Text} {e : Fault}
    (h : answer (w.resolve file modulePath) s = .error e) : ModulePath.isBuiltin modulePath = false := by
  cases hb : ModulePath.isBuiltin modulePath with
  | false => rfl
  | true =>
    rw [w.answer_resolve_eq_first, Workspace.tries, if_pos hb] at h
    cases h

theorem steady_addLoadings : ∀ (ls : List Loading) (g : ModuleGraph), Steady (addLoadings w file ls g)
  | [], g => steady_pure (g, [])
  | l :: ls, g => by
    refine Steady.ite (steady_addLoadings ls _) ((w.steady_resolve file l.modulePath).bind (Steady.option ?_ ?_))
    · intro target
      exact Steady.ite (steady_addLoadings ls g) ((steady_addLoadings ls _).bind fun _ => steady_pure _)
    · exact steady_addLoadings ls _

theorem answer_addLoadings_cons_of_ok {l : Loading} {found : Option Path} (hb : ModulePath.isBuiltin l.modulePath = false)
    (hfound : answer (w.resolve file l.modulePath) s = .ok found) (ls : List Loading) (g : ModuleGraph) :
    answer (addLoadings w file (l :: ls) g) s = (answer (addLoadings w file ls (enter w s file g l)) s).map
      fun r => (r.1, (loaded? w s file l).toList ++ r.2) := by
  have hsteady := w.steady_resolve file l.modulePath
  have ht := Workspace.target?_of_ok hfound
  have hsame : ∀ x : Except Fault (ModuleGraph × List Path), x.map (fun r => (r.1, [] ++ r.2)) = x := by
    intro x
    cases x <;> rfl
  rw [addLoadings, if_neg (by simp [hb]), enter, if_neg (by simp [hb]), loaded?, ht]
  cases found with
  | none =>
    rw [hsteady.answer_bind_ok hfound (steady_addLoadings ls _)]
    exact (hsame _).symm
  | some target =>
    by_cases hf : target = file
    · rw [hsteady.answer_bind_ok hfound]
      · simp only [if_pos hf]
        rw [Option.filter_some_neg (by simp [hf])]
        exact (hsame _).symm
      · simp only [if_pos hf]
        exact steady_addLoadings ls g
    · rw [hsteady.answer_bind_ok hfound]
      · simp only [if_neg hf]
        rw [answer_bind, Option.filter_some_pos (by simp [hf])]
        cases answer (addLoadings w file ls (g.addEdge ⟨file, target, l.kind, l.label⟩)) s <;> rfl
      · simp only [if_neg hf]
        exact (steady_addLoadings ls _).bind fun _ => steady_pure _

/-- Declarations are entered one by one, up to one that leads to a manifest at fault. -/
theorem answer_addLoadings : ∀ (ls : List Loading) (g : ModuleGraph),
    (answer (addLoadings w file ls g) s = .ok (ls.foldl (enter w s file) g, ls.filterMap (loaded? w s file)) ∧
      ∀ l ∈ ls, ∀ e, answer (w.resolve file l.modulePath) s ≠ .error e) ∨
    ∃ e, answer (addLoadings w file ls g) s = .error e ∧ ∃ l ∈ ls, answer (w.resolve file l.modulePath) s = .error e
  | [], _ => Or.inl ⟨rfl, fun _ hl => absurd hl List.not_mem_nil⟩
  | l :: ls, g => by
    have hfault : ∀ g', (∃ e, answer (addLoadings w file ls g') s = .error e ∧
        ∃ l ∈ ls, answer (w.resolve file l.modulePath) s = .error e) →
        ∃ e, answer (addLoadings w file ls g') s = .error e ∧
          ∃ l' ∈ l :: ls, answer (w.resolve file l'.modulePath) s = .error e := by
      rintro g' ⟨e, he, l', hl', hr⟩
      exact ⟨e, he, l', List.mem_cons_of_mem l hl', hr⟩
    cases hb : ModulePath.isBuiltin l.modulePath with
    | true =>
      have hstep : answer (addLoadings w file (l :: ls) g) s =
          answer (addLoadings w file ls (enter w s file g l)) s := by
        rw [addLoadings, if_pos hb, enter, if_pos hb]
      rw [hstep]
      refine (answer_addLoadings ls (enter w s file g l)).imp ?_ (hfault _)
      rintro ⟨hok, hall⟩
      refine ⟨?_, List.forall_mem_cons.2 ⟨fun e he => ?_, hall⟩⟩
      · rw [hok, List.foldl_cons, List.filterMap_cons_none]
        rw [loaded?, target?_of_isBuiltin hb]
        rfl
      · rw [not_isBuiltin_of_resolve he] at hb
        cases hb
    | false =>
      cases hfound : answer (w.resolve file l.modulePath) s with
      | error e =>
        refine Or.inr ⟨e, ?_, l, List.mem_cons_self, hfound⟩
        rw [addLoadings, if_neg (by simp [hb]), answer_bind, hfound]
        rfl
      | ok found =>
        rw [answer_addLoadings_cons_of_ok hb hfound]
        rcases answer_addLoadings ls (enter w s file g l) with ⟨hok, hall⟩ | ⟨e, he, hl⟩
        · refine Or.inl ⟨?_, List.forall_mem_cons.2 ⟨fun e he => ?_, hall⟩⟩
          · rw [hok, List.foldl_cons]
            cases hl : loaded? w s file l with
            | none => rw [List.filterMap_cons_none hl]; rfl
            | some target => rw [List.filterMap_cons_some hl]; rfl
          · rw [hfound] at he
            cases he
        · obtain ⟨l', hl', hr⟩ := hl
          exact Or.inr ⟨e, by rw [he]; rfl, l', List.mem_cons_of_mem l hl', hr⟩

theorem steady_readModule (file : Path) : Steady (readModule file) := by
  refine Steady.tryCatch ((steady_fileText file).map some) fun fault => ?_
  cases fault with
  | read cause => exact Steady.ite (steady_reported _ _) (steady_throw _)
  | _ => exact steady_throw _

theorem steady_addFile (g : ModuleGraph) : Steady (addFile w file g) :=
  (steady_readModule file).bind (Steady.option
    (fun content => (steady_loadings content).bind fun ls => steady_addLoadings ls _) (steady_pure _))

theorem answer_readModule_ok {content : Text} (h : s.reads file = .ok content) :
    answer (readModule file) s = .ok (some content) := by
  rw [readModule, answer_tryCatch, answer_map_fileText, h]
  rfl

theorem answer_readModule_error {cause : ReadFault} (h : s.reads file = .error cause) :
    answer (readModule file) s = if cause.isUnreadable then .ok none else .error (.read cause) := by
  rw [readModule, answer_tryCatch, answer_map_fileText, h]
  show answer (if cause.isUnreadable = true then _ else _) _ = _
  cases cause.isUnreadable <;> rfl

variable (w s file) in
/-- Scanning the file ends with a fault: no disk can hold its path, or it declares a module path that leads to a manifest
at fault. -/
inductive Faults : Fault → Prop where
  | path (h : s.reads file = .error .nullCharacter) : Faults (.read .nullCharacter)
  | manifest {content : Text} {kind : EdgeKind} {modulePath : Text} {label : Option Text} {e : Fault}
      (hread : s.reads file = .ok content) (hdeclares : Declares content kind modulePath label)
      (hresolve : answer (w.resolve file modulePath) s = .error e) : Faults e

variable (w s file) in
/-- Scanning a file enters what it declares and gives what it loads, unless it ends with a fault. A file that cannot be
read declares nothing. -/
theorem answer_addFile (g : ModuleGraph) :
    (answer (addFile w file g) s = .ok (enterFile w s file g, loadedBy w s file) ∧ ∀ e, ¬ Faults w s file e) ∨
      ∃ e, answer (addFile w file g) s = .error e ∧ Faults w s file e := by
  unfold enterFile loadedBy loadingsOf
  cases hr : s.reads file with
  | ok content =>
    have hsteady : Steady (loadings content >>= fun ls => addLoadings w file ls (g.addNode file)) :=
      (steady_loadings content).bind fun ls => steady_addLoadings ls _
    have hstep : answer (addFile w file g) s =
        answer (addLoadings w file (Loading.scan content) (g.addNode file)) s :=
      ((steady_readModule file).answer_bind_ok (answer_readModule_ok hr) hsteady).trans
        ((steady_loadings content).answer_bind_ok (answer_loadings content s) (steady_addLoadings _ _))
    rw [hstep]
    rcases answer_addLoadings (Loading.scan content) (g.addNode file) with ⟨hok, hall⟩ | ⟨e, he, l, hl, hresolve⟩
    · refine Or.inl ⟨hok, fun e he => ?_⟩
      cases he with
      | path h => rw [hr] at h; cases h
      | manifest hread hdeclares hresolve =>
        obtain rfl := Except.ok.inj (hr.symm.trans hread)
        exact hall _ (Loading.mem_scan.2 hdeclares) e hresolve
    · exact Or.inr ⟨e, he, .manifest hr (Loading.mem_scan.1 hl) hresolve⟩
  | error cause =>
    cases hcause : cause.isUnreadable with
    | true =>
      have hread : answer (readModule file) s = .ok none := by rw [answer_readModule_error hr, if_pos hcause]
      refine Or.inl ⟨(steady_readModule file).answer_bind_ok hread (steady_pure _), fun e he => ?_⟩
      cases he with
      | path h =>
        obtain rfl := Except.error.inj (hr.symm.trans h)
        cases hcause
      | manifest hread _ _ => rw [hr] at hread; cases hread
    | false =>
      obtain rfl : cause = .nullCharacter := by
        cases cause with
        | nullCharacter => rfl
        | _ => cases hcause
      refine Or.inr ⟨_, ?_, .path hr⟩
      rw [addFile, answer_bind, answer_readModule_error hr]
      rfl

end File

/-! ## What is entered -/

section Entries

variable {w : Workspace} {s : Session} {file p : Path} {g : ModuleGraph} {l : Loading} {e : Edge} {m : Mention}

theorem loaded?_eq_some : loaded? w s file l = some p ↔ w.target? s file l.modulePath = some p ∧ p ≠ file := by
  simp [loaded?, Option.filter_eq_some_iff]

variable (w s file g l) in
/-- A declaration is a built-in module, leads nowhere, leads back to its file, or is an edge. -/
theorem enter_cases :
    (ModulePath.isBuiltin l.modulePath = true ∧ w.target? s file l.modulePath = none ∧
      enter w s file g l = g.addBuiltin ⟨file, l.modulePath⟩) ∨
    (ModulePath.isBuiltin l.modulePath = false ∧ w.target? s file l.modulePath = none ∧
      enter w s file g l = g.addMissing ⟨file, l.modulePath⟩) ∨
    (ModulePath.isBuiltin l.modulePath = false ∧ w.target? s file l.modulePath = some file ∧
      enter w s file g l = g) ∨
    ∃ target, ModulePath.isBuiltin l.modulePath = false ∧ w.target? s file l.modulePath = some target ∧
      target ≠ file ∧ enter w s file g l = g.addEdge ⟨file, target, l.kind, l.label⟩ := by
  unfold enter
  cases hb : ModulePath.isBuiltin l.modulePath with
  | true => exact Or.inl ⟨rfl, target?_of_isBuiltin hb, rfl⟩
  | false =>
    refine Or.inr ?_
    cases ht : w.target? s file l.modulePath with
    | none => exact Or.inl ⟨rfl, rfl, rfl⟩
    | some target =>
      by_cases hf : target = file
      · exact Or.inr (Or.inl ⟨rfl, congrArg some hf, if_pos hf⟩)
      · exact Or.inr (Or.inr ⟨target, rfl, rfl, hf, if_neg hf⟩)

/-- A declaration of a file that is a module already adds the file that it leads to. -/
theorem mem_nodes_enter (hfile : file ∈ g.nodes) :
    p ∈ (enter w s file g l).nodes ↔ p ∈ g.nodes ∨ loaded? w s file l = some p := by
  rw [loaded?_eq_some]
  obtain ⟨-, ht, h⟩ | ⟨-, ht, h⟩ | ⟨-, ht, h⟩ | ⟨target, -, ht, hf, h⟩ := enter_cases w s file g l <;> rw [h, ht]
  · simp only [mem_nodes_addBuiltin]
    grind
  · simp only [mem_nodes_addMissing]
    grind
  · grind
  · simp only [mem_nodes_addEdge]
    grind

theorem mem_edges_enter : e ∈ (enter w s file g l).edges ↔
    e ∈ g.edges ∨ e.source = file ∧ loaded? w s file l = some e.target ∧ l.kind = e.kind ∧ l.label = e.label := by
  rw [loaded?_eq_some]
  obtain ⟨-, ht, h⟩ | ⟨-, ht, h⟩ | ⟨-, ht, h⟩ | ⟨target, -, ht, hf, h⟩ := enter_cases w s file g l <;> rw [h, ht]
  · simp
  · simp
  · grind
  · rw [mem_edges_addEdge]
    grind [Edge]

theorem mem_missing_enter : m ∈ (enter w s file g l).missing ↔ m ∈ g.missing ∨ m = ⟨file, l.modulePath⟩ ∧
    ModulePath.isBuiltin l.modulePath = false ∧ w.target? s file l.modulePath = none := by
  obtain ⟨hb, ht, h⟩ | ⟨hb, ht, h⟩ | ⟨hb, ht, h⟩ | ⟨target, hb, ht, hf, h⟩ := enter_cases w s file g l
  · simp [h, hb]
  · simp [h, hb, ht, or_comm]
  · simp [h, ht]
  · simp [h, ht]

theorem mem_builtins_enter : m ∈ (enter w s file g l).builtins ↔ m ∈ g.builtins ∨ m = ⟨file, l.modulePath⟩ ∧
    ModulePath.isBuiltin l.modulePath = true := by
  obtain ⟨hb, ht, h⟩ | ⟨hb, ht, h⟩ | ⟨hb, ht, h⟩ | ⟨target, hb, ht, hf, h⟩ := enter_cases w s file g l
  · simp [h, hb, or_comm]
  · simp [h, hb]
  · simp [h, hb]
  · simp [h, hb]

theorem Ordered.enter (h : g.Ordered) (l : Loading) : (enter w s file g l).Ordered := by
  obtain ⟨-, -, he⟩ | ⟨-, -, he⟩ | ⟨-, -, he⟩ | ⟨target, -, -, -, he⟩ := enter_cases w s file g l <;> rw [he]
  · exact h.addBuiltin _
  · exact h.addMissing _
  · exact h
  · exact h.addEdge _

/-- A part of the graph after all declarations, by what each of them adds to it. -/
theorem foldl_enter_iff {P : ModuleGraph → Prop} {Q : Loading → Prop}
    (h : ∀ g l, P (enter w s file g l) ↔ P g ∨ Q l) : ∀ (ls : List Loading) (g : ModuleGraph),
    P (ls.foldl (enter w s file) g) ↔ P g ∨ ∃ l ∈ ls, Q l
  | [], g => by simp
  | l :: ls, g => by
    rw [List.foldl_cons, foldl_enter_iff h ls, h]
    simp only [List.exists_mem_cons_iff, or_assoc]

theorem mem_nodes_foldl_enter : ∀ (ls : List Loading) (g : ModuleGraph), file ∈ g.nodes →
    (p ∈ (ls.foldl (enter w s file) g).nodes ↔ p ∈ g.nodes ∨ p ∈ ls.filterMap (loaded? w s file))
  | [], g, _ => by simp
  | l :: ls, g, hfile => by
    have hl : file ∈ (enter w s file g l).nodes := (mem_nodes_enter hfile).2 (Or.inl hfile)
    rw [List.foldl_cons, mem_nodes_foldl_enter ls _ hl, mem_nodes_enter hfile]
    simp only [List.mem_filterMap, List.exists_mem_cons_iff, or_assoc]

theorem Ordered.enterFile (h : g.Ordered) (file : Path) : (enterFile w s file g).Ordered :=
  List.foldlRecOn _ _ (h.addNode file) fun _ hg l _ => hg.enter l

end Entries

/-! ## The graph of a set of files -/

section Graph

variable (w : Workspace) (s : Session)

/-- A readable file declares a module path that resolves to another file. -/
def Loads (file target : Path) : Prop :=
  target ≠ file ∧ ∃ content kind modulePath label, s.reads file = .ok content ∧
    Declares content kind modulePath label ∧ w.target? s file modulePath = some target

/-- The graph of the files in a set: they and what they load are the modules, and each declaration of a readable one is
an edge, a module path that resolves to nothing, or a built-in module; a declaration that leads back is nothing. One that
cannot be read is a module that loads nothing. -/
structure IsGraphOf (scanned : Set Path) (g : ModuleGraph) : Prop where
  ordered : g.Ordered
  nodes : ∀ p, p ∈ g.nodes ↔ p ∈ scanned ∨ ∃ f ∈ scanned, Loads w s f p
  edges : ∀ e, e ∈ g.edges ↔ e.source ∈ scanned ∧ e.target ≠ e.source ∧
    ∃ content modulePath, s.reads e.source = .ok content ∧ Declares content e.kind modulePath e.label ∧
      ModulePath.isBuiltin modulePath = false ∧ w.target? s e.source modulePath = some e.target
  missing : ∀ m, m ∈ g.missing ↔ m.source ∈ scanned ∧ ∃ content kind label, s.reads m.source = .ok content ∧
    Declares content kind m.modulePath label ∧ ModulePath.isBuiltin m.modulePath = false ∧
      w.target? s m.source m.modulePath = none
  builtins : ∀ m, m ∈ g.builtins ↔ m.source ∈ scanned ∧ ∃ content kind label, s.reads m.source = .ok content ∧
    Declares content kind m.modulePath label ∧ ModulePath.isBuiltin m.modulePath = true
  unreadable : ∀ f ∈ scanned, (∀ content, s.reads f ≠ .ok content) → f ∈ g.nodes ∧ g.edgesOf f = []

/-- The graph after some files, the last of the list scanned first. -/
def graphOf (files : List Path) : ModuleGraph := files.foldr (enterFile w s) .empty

variable {w s} {file p target : Path} {files : List Path} {g : ModuleGraph} {e : Edge} {m : Mention}

theorem mem_loadingsOf {kind : EdgeKind} {modulePath : Text} {label : Option Text} :
    ⟨kind, modulePath, label⟩ ∈ loadingsOf s file ↔ ∃ content, s.reads file = .ok content ∧
      Declares content kind modulePath label := by
  unfold loadingsOf
  cases s.reads file with
  | error cause => simp
  | ok content => simp [Loading.mem_scan]

theorem loadingsOf_of_unreadable (h : ∀ content, s.reads file ≠ .ok content) : loadingsOf s file = [] := by
  unfold loadingsOf
  cases hr : s.reads file with
  | error cause => rfl
  | ok content => exact absurd hr (h content)

theorem mem_loadedBy : target ∈ loadedBy w s file ↔ Loads w s file target := by
  simp only [loadedBy, List.mem_filterMap, loaded?_eq_some, Loads]
  constructor
  · rintro ⟨⟨kind, modulePath, label⟩, hl, ht, hne⟩
    obtain ⟨content, hread, hdeclares⟩ := mem_loadingsOf.1 hl
    exact ⟨hne, content, kind, modulePath, label, hread, hdeclares, ht⟩
  · rintro ⟨hne, content, kind, modulePath, label, hread, hdeclares, ht⟩
    exact ⟨⟨kind, modulePath, label⟩, mem_loadingsOf.2 ⟨content, hread, hdeclares⟩, ht, hne⟩

theorem ordered_graphOf : ∀ files : List Path, (graphOf w s files).Ordered
  | [] => ordered_empty
  | f :: fs => (ordered_graphOf fs).enterFile f

theorem mem_nodes_graphOf : ∀ {files : List Path},
    p ∈ (graphOf w s files).nodes ↔ p ∈ files ∨ ∃ f ∈ files, p ∈ loadedBy w s f
  | [] => by simp [graphOf, empty]
  | f :: fs => by
    have hf : f ∈ ((graphOf w s fs).addNode f).nodes := mem_nodes_addNode.2 (Or.inl rfl)
    show p ∈ ((loadingsOf s f).foldl (enter w s f) ((graphOf w s fs).addNode f)).nodes ↔ _
    rw [mem_nodes_foldl_enter _ _ hf, mem_nodes_addNode, mem_nodes_graphOf, List.exists_mem_cons_iff, List.mem_cons]
    show (p = f ∨ p ∈ fs ∨ ∃ f ∈ fs, p ∈ loadedBy w s f) ∨ p ∈ loadedBy w s f ↔ _
    simp only [or_assoc, or_comm, or_left_comm]

theorem mem_edges_graphOf : ∀ {files : List Path}, e ∈ (graphOf w s files).edges ↔ e.source ∈ files ∧
    ∃ l ∈ loadingsOf s e.source, loaded? w s e.source l = some e.target ∧ l.kind = e.kind ∧ l.label = e.label
  | [] => by simp [graphOf, empty]
  | f :: fs => by
    show e ∈ ((loadingsOf s f).foldl (enter w s f) ((graphOf w s fs).addNode f)).edges ↔ _
    rw [foldl_enter_iff (P := fun g => e ∈ g.edges) fun _ _ => mem_edges_enter, edges_addNode, mem_edges_graphOf,
      List.mem_cons]
    grind

theorem mem_missing_graphOf : ∀ {files : List Path}, m ∈ (graphOf w s files).missing ↔ m.source ∈ files ∧
    ∃ l ∈ loadingsOf s m.source, l.modulePath = m.modulePath ∧ ModulePath.isBuiltin m.modulePath = false ∧
      w.target? s m.source m.modulePath = none
  | [] => by simp [graphOf, empty]
  | f :: fs => by
    show m ∈ ((loadingsOf s f).foldl (enter w s f) ((graphOf w s fs).addNode f)).missing ↔ _
    rw [foldl_enter_iff (P := fun g => m ∈ g.missing) fun _ _ => mem_missing_enter, missing_addNode,
      mem_missing_graphOf, List.mem_cons]
    grind [Mention]

theorem mem_builtins_graphOf : ∀ {files : List Path}, m ∈ (graphOf w s files).builtins ↔ m.source ∈ files ∧
    ∃ l ∈ loadingsOf s m.source, l.modulePath = m.modulePath ∧ ModulePath.isBuiltin m.modulePath = true
  | [] => by simp [graphOf, empty]
  | f :: fs => by
    show m ∈ ((loadingsOf s f).foldl (enter w s f) ((graphOf w s fs).addNode f)).builtins ↔ _
    rw [foldl_enter_iff (P := fun g => m ∈ g.builtins) fun _ _ => mem_builtins_enter, builtins_addNode,
      mem_builtins_graphOf, List.mem_cons]
    grind [Mention]

/-- Scanning files, in whatever order, gives the graph of the files. -/
theorem isGraphOf_graphOf (files : List Path) : IsGraphOf w s {f | f ∈ files} (graphOf w s files) where
  ordered := ordered_graphOf files
  nodes := by
    intro p
    simp only [mem_nodes_graphOf, mem_loadedBy, Set.mem_ofPred_eq]
  edges := by
    intro e
    rw [mem_edges_graphOf, Set.mem_ofPred_eq, and_congr_right_iff]
    rintro -
    constructor
    · rintro ⟨⟨kind, modulePath, label⟩, hl, hloaded, rfl, rfl⟩
      obtain ⟨ht, hne⟩ := loaded?_eq_some.1 hloaded
      obtain ⟨content, hread, hdeclares⟩ := mem_loadingsOf.1 hl
      refine ⟨hne, content, modulePath, hread, hdeclares, ?_, ht⟩
      -- a built-in module has no file that an edge could lead to
      by_contra hb
      rw [target?_of_isBuiltin (by simpa using hb)] at ht
      cases ht
    · rintro ⟨hne, content, modulePath, hread, hdeclares, -, ht⟩
      exact ⟨_, mem_loadingsOf.2 ⟨content, hread, hdeclares⟩, loaded?_eq_some.2 ⟨ht, hne⟩, rfl, rfl⟩
  missing := by
    intro m
    rw [mem_missing_graphOf, Set.mem_ofPred_eq, and_congr_right_iff]
    rintro -
    constructor
    · rintro ⟨⟨kind, modulePath, label⟩, hl, rfl, hb, ht⟩
      obtain ⟨content, hread, hdeclares⟩ := mem_loadingsOf.1 hl
      exact ⟨content, kind, label, hread, hdeclares, hb, ht⟩
    · rintro ⟨content, kind, label, hread, hdeclares, hb, ht⟩
      exact ⟨_, mem_loadingsOf.2 ⟨content, hread, hdeclares⟩, rfl, hb, ht⟩
  builtins := by
    intro m
    rw [mem_builtins_graphOf, Set.mem_ofPred_eq, and_congr_right_iff]
    rintro -
    constructor
    · rintro ⟨⟨kind, modulePath, label⟩, hl, rfl, hb⟩
      obtain ⟨content, hread, hdeclares⟩ := mem_loadingsOf.1 hl
      exact ⟨content, kind, label, hread, hdeclares, hb⟩
    · rintro ⟨content, kind, label, hread, hdeclares, hb⟩
      exact ⟨_, mem_loadingsOf.2 ⟨content, hread, hdeclares⟩, rfl, hb⟩
  unreadable := by
    intro f hf hread
    refine ⟨mem_nodes_graphOf.2 (Or.inl hf), List.filter_eq_nil_iff.2 fun e he hsource => ?_⟩
    obtain ⟨-, l, hl, -⟩ := mem_edges_graphOf.1 he
    rw [beq_iff_eq.1 hsource, loadingsOf_of_unreadable hread] at hl
    cases hl

end Graph

end SassModules.ModuleGraph
