import SassModules.Proofs.Depth

/-!
# How walks end

A walk is cut off when it is not allowed to go as deep as it would. Two walks of different depth do the same, value and
state, as long as the shallower one is not cut off (`agrees_findWithin`, `agrees_listWithin`). From an absolute path no
walk needs more than twice the number of regular files and two: the files that it has opened are different, and all but
the first are plain spellings of regular files, of which each has two (`Room.depth_pos`). So where every file on the way
can be read, a listing answers, or it ends with the fault of a manifest that a declaration on the way leads to
(`visibleMembers_fault`). And however a walk ends, by a value or by a fault at any depth, the open files are those that
it began with (`openFiles_restored`).
-/

namespace SassModules

open Forwarding

/-! ## Work that is not cut off -/

section Agreeing

variable {α β : Type}

/-- The second work does what the first does, value and state, wherever the first is not cut off. -/
def Agrees (x y : Expansion α) : Prop := ∀ u, answer x u ≠ .error .tooDeep → y u = x u

theorem Agrees.refl (x : Expansion α) : Agrees x x := fun _ _ => rfl

theorem Agrees.trans {x y z : Expansion α} (hxy : Agrees x y) (hyz : Agrees y z) : Agrees x z := by
  intro u hx
  have hy : answer y u = answer x u := by simp only [answer, hxy u hx]
  rw [hyz u (by rw [hy]; exact hx), hxy u hx]

theorem agrees_throw (y : Expansion α) : Agrees (throw .tooDeep) y := fun _ h => absurd rfl h

theorem Agrees.bind {x y : Expansion α} {k l : α → Expansion β} (hx : Agrees x y) (hk : ∀ a, Agrees (k a) (l a)) :
    Agrees (x >>= k) (y >>= l) := by
  intro u h
  rw [answer_bind] at h
  have hfirst : answer x u ≠ .error .tooDeep := by
    intro e
    rw [e] at h
    exact h rfl
  show EStateM.bind y l u = EStateM.bind x k u
  simp only [EStateM.bind, hx u hfirst]
  cases hr : x u with
  | error e u' => rfl
  | ok a u' =>
    have ha : answer x u = .ok a := by simp only [answer, hr]
    have hu : after x u = u' := by simp only [after, hr]
    rw [ha, hu] at h
    exact hk a u' h

/-- Going on with what was found, or else with other work. -/
theorem Agrees.option {k l : Option α → Expansion β} (hsome : ∀ a, Agrees (k (some a)) (l (some a)))
    (hnone : Agrees (k none) (l none)) : ∀ found, Agrees (k found) (l found)
  | some a => hsome a
  | none => hnone

theorem Agrees.expanding {x y : Expansion α} (file : Path) (h : Agrees x y) :
    Agrees (Walk.expanding file x) (Walk.expanding file y) := by
  intro u hu
  rw [Walk.answer_expanding] at hu
  simp only [Walk.expanding, h _ hu]

theorem Agrees.guarded {x y : Expansion α} (file : Path) (refuse : Expansion α) (h : Agrees x y) :
    Agrees (Walk.guarded file refuse x) (Walk.guarded file refuse y) := by
  refine (Agrees.refl (Walk.isOpen file)).bind fun isOpen => ?_
  split
  · exact .refl refuse
  · exact h.expanding file

end Agreeing

/-! ## A deeper walk does the same -/

namespace Forwarding

variable {w : Workspace} {kind : MemberKind} {file : Path} {member : Text}

theorem agrees_followFit {next next' : Text → Text → Path → Expansion (Option Origin)}
    {rest rest' : Expansion (Option Origin)} (d : Reexport) (origin : Text)
    (hnext : ∀ content member file, Agrees (next content member file) (next' content member file))
    (hrest : Agrees rest rest') :
    Agrees (followFit w next file d origin rest) (followFit w next' file d origin rest') := by
  refine (Agrees.refl _).bind (Agrees.option (fun target => ?_) ?_)
  · refine (Agrees.refl _).bind fun _ => (Agrees.refl _).bind fun content => ?_
    exact (hnext content origin target).bind fun _ => .refl _
  · exact (Agrees.refl _).bind fun _ => hrest

theorem agrees_followFirst {next next' : Text → Text → Path → Expansion (Option Origin)}
    (hnext : ∀ content member file, Agrees (next content member file) (next' content member file)) :
    ∀ ds : List Reexport, Agrees (followFirst w next member file ds) (followFirst w next' member file ds)
  | [] => .refl _
  | d :: ds => by
    have ih := agrees_followFirst hnext ds
    rw [followFirst, followFirst]
    cases hp : Name.stripPrefix? d.pre member with
    | none => exact ih
    | some origin =>
      cases d.pre with
      | none => exact agrees_followFit d origin hnext ih
      | some pre => exact (Agrees.refl _).bind fun _ => agrees_followFit d origin hnext ih

theorem agrees_collect {next next' : Text → Path → Expansion (List Member)}
    (hnext : ∀ content file, Agrees (next content file) (next' content file)) :
    ∀ ds : List Reexport, Agrees (collect w kind next file ds) (collect w kind next' file ds)
  | [] => .refl _
  | d :: ds => by
    have ih := agrees_collect hnext ds
    rw [collect_cons, collect_cons]
    refine (Agrees.refl _).bind (Agrees.option (fun target => ?_) ?_)
    · refine (Agrees.refl _).bind fun content => (Agrees.refl _).bind fun own => ?_
      exact (hnext content target).bind fun nested => ih.bind fun rest => .refl _
    · exact (Agrees.refl _).bind fun _ => ih

theorem agrees_findWithin_succ : ∀ (depth : Nat) (content member : Text) (file : Path),
    Agrees (findWithin w depth content member file) (findWithin w (depth + 1) content member file)
  | 0, _, _, _ => agrees_throw _
  | depth + 1, content, member, file => by
    rw [findWithin_succ, findWithin_succ]
    exact Agrees.guarded file _ ((Agrees.refl _).bind fun ds => agrees_followFirst (agrees_findWithin_succ depth) ds)

theorem agrees_listWithin_succ : ∀ (depth : Nat) (content : Text) (file : Path),
    Agrees (listWithin w kind depth content file) (listWithin w kind (depth + 1) content file)
  | 0, _, _ => agrees_throw _
  | depth + 1, content, file => by
    rw [listWithin_succ, listWithin_succ]
    exact Agrees.guarded file _ ((Agrees.refl _).bind fun ds => agrees_collect (agrees_listWithin_succ depth) ds)

/-- A search that is not cut off does the same at every greater depth. -/
theorem agrees_findWithin {depth depth' : Nat} (h : depth ≤ depth') (content member : Text) (file : Path) :
    Agrees (findWithin w depth content member file) (findWithin w depth' content member file) := by
  induction h with
  | refl => exact .refl _
  | step _ ih => exact ih.trans (agrees_findWithin_succ _ content member file)

/-- A listing that is not cut off does the same at every greater depth. -/
theorem agrees_listWithin {depth depth' : Nat} (h : depth ≤ depth') (content : Text) (file : Path) :
    Agrees (listWithin w kind depth content file) (listWithin w kind depth' content file) := by
  induction h with
  | refl => exact .refl _
  | step _ ih => exact ih.trans (agrees_listWithin_succ _ content file)

end Forwarding

/-! ## The number of regular files bounds the depth -/

/-- The files that a walk from `start` has opened, and how much deeper it may go: they are different, all but `start`
are plain paths of regular files, and there is room for every other one and for a last one that is refused. -/
structure Room (d : Disk) (start : Path) (opened : List Path) (depth : Nat) : Prop where
  nodup : opened.Nodup
  known : ∀ f ∈ opened, d.Knows [start] f
  enough : 2 * d.files.card + 2 ≤ depth + opened.length

namespace Room

variable {d : Disk} {start file : Path} {opened : List Path} {depth : Nat}

/-- There is always room for one more call. -/
theorem depth_pos (h : Room d start opened depth) : 0 < depth := by
  have hle := Disk.length_le_files h.nodup h.known
  have henough := h.enough
  rw [List.length_singleton] at hle
  omega

/-- Opening a file uses up one call of the room. -/
theorem opening (h : Room d start opened (depth + 1)) (hnew : file ∉ opened)
    (hfile : d.Knows [start] file) : Room d start (file :: opened) depth where
  nodup := List.nodup_cons.2 ⟨hnew, h.nodup⟩
  known := List.forall_mem_cons.2 ⟨hfile, h.known⟩
  enough := by
    have henough := h.enough
    rw [List.length_cons]
    omega

/-- A walk that begins with this much depth has room. -/
theorem ofDepth (hdepth : 2 * d.files.card + 2 ≤ depth) (start : Path) : Room d start [] depth :=
  ⟨List.nodup_nil, fun f hf => absurd hf List.not_mem_nil, by simpa using hdepth⟩

end Room

namespace Forwarding

variable {w : Workspace} {s : Session} {kind : MemberKind} {V : OpenFiles} {start file : Path} {member : Text}

/-- What every fault of following declarations has, if each step has it: the resolving, the reading and the rest of the
walk. -/
theorem followFirst_fault {P : Fault → Prop} {e : Fault} {next : Text → Text → Path → Expansion (Option Origin)}
    (hsteady : ∀ content member file, Steady (next content member file)) : ∀ {ds : List Reexport},
    (∀ d ∈ ds, ∀ e, answer (w.resolve file d.path) s = .error e → P e) →
    (∀ d ∈ ds, ∀ target, w.target? s file d.path = some target → ∀ e,
      (s.reads target).mapError .read = .error e ∨
        (∃ text origin, s.reads target = .ok text ∧ answer (next text origin target) ⟨s, V⟩ = .error e) → P e) →
    answer (followFirst w next member file ds) ⟨s, V⟩ = .error e → P e
  | [], _, _, h => by cases h
  | d :: ds, hresolve, htarget, h => by
    obtain ⟨hresolve₁, hresolve⟩ := List.forall_mem_cons.1 hresolve
    obtain ⟨htarget₁, htarget⟩ := List.forall_mem_cons.1 htarget
    cases hp : Name.stripPrefix? d.pre member with
    | none =>
      rw [answer_followFirst_skip hsteady (Or.inl hp)] at h
      exact followFirst_fault hsteady hresolve htarget h
    | some origin =>
      rcases hr : answer (w.resolve file d.path) s with e' | _ | target
      · rw [answer_followFirst_fault hsteady hp hr] at h
        cases h
        exact hresolve₁ e hr
      · rw [answer_followFirst_skip hsteady (Or.inr hr)] at h
        exact followFirst_fault hsteady hresolve htarget h
      · have ht := Workspace.target?_of_ok hr
        rw [answer_followFirst_hit hsteady hp ht] at h
        refine htarget₁ target ht e ?_
        rcases bind_eq_error.1 h with h | ⟨text, hread, h⟩
        · exact Or.inl h
        · rcases bind_eq_error.1 h with h | ⟨_, -, h⟩
          · exact Or.inr ⟨text, origin, mapError_eq_ok.1 hread, h⟩
          · cases h

/-- What every fault of a listing has, if each step has it. -/
theorem collect_fault {P : Fault → Prop} {e : Fault} {next : Text → Path → Expansion (List Member)}
    (hsteady : ∀ content file, Steady (next content file)) : ∀ {ds : List Reexport},
    (∀ d ∈ ds, ∀ e, answer (w.resolve file d.path) s = .error e → P e) →
    (∀ d ∈ ds, ∀ target, w.target? s file d.path = some target → ∀ e,
      (s.reads target).mapError .read = .error e ∨
        (∃ text, s.reads target = .ok text ∧ answer (next text target) ⟨s, V⟩ = .error e) → P e) →
    answer (collect w kind next file ds) ⟨s, V⟩ = .error e → P e
  | [], _, _, h => by cases h
  | d :: ds, hresolve, htarget, h => by
    obtain ⟨hresolve₁, hresolve⟩ := List.forall_mem_cons.1 hresolve
    obtain ⟨htarget₁, htarget⟩ := List.forall_mem_cons.1 htarget
    rw [answer_collect_cons hsteady] at h
    rcases bind_eq_error.1 h with h | ⟨found, hfound, h⟩
    · exact hresolve₁ e h
    · cases found with
      | none => exact collect_fault hsteady hresolve htarget h
      | some target =>
        have ht := htarget₁ target (Workspace.target?_of_ok hfound) e
        rcases bind_eq_error.1 h with h | ⟨text, hread, h⟩
        · exact ht (Or.inl h)
        rcases bind_eq_error.1 h with h | ⟨nested, -, h⟩
        · exact ht (Or.inr ⟨text, mapError_eq_ok.1 hread, h⟩)
        rcases bind_eq_error.1 h with h | ⟨others, -, h⟩
        · exact collect_fault hsteady hresolve htarget h
        · cases h

theorem resolve_ne_tooDeep {e : Fault} (d : Reexport) (h : answer (w.resolve file d.path) s = .error e) :
    e ≠ .tooDeep := by
  obtain ⟨count, rfl⟩ := Workspace.resolve_fault h
  nofun

theorem read_ne_tooDeep {e : Fault} {p : Path} (h : (s.reads p).mapError .read = .error e) : e ≠ .tooDeep := by
  obtain ⟨cause, -, rfl⟩ := mapError_eq_error.1 h
  nofun

/-- A search with room is not cut off. The open files are those that the walk has opened, on top of those that were
open when it began. -/
theorem findWithin_ne_tooDeep (hinclude : ∀ dir ∈ w.includePaths, dir.isAbsolute = true) :
    ∀ (depth : Nat) (opened : List Path) (content member : Text) (file : Path), Room s.disk start opened depth →
      file.isAbsolute = true → s.disk.Knows [start] file →
      answer (findWithin w depth content member file) ⟨s, opened ++ V⟩ ≠ .error .tooDeep
  | 0, _, _, _, _, hroom, _, _ => absurd hroom.depth_pos (Nat.lt_irrefl 0)
  | depth + 1, opened, content, member, file, hroom, habsolute, hfile => by
    rw [answer_findWithin_succ]
    by_cases hopen : file ∈ opened ++ V
    · rw [if_pos hopen]
      nofun
    rw [if_neg hopen]
    intro h
    have hroom' := hroom.opening (fun hm => hopen (List.mem_append_left V hm)) hfile
    refine followFirst_fault (P := (· ≠ .tooDeep)) (steady_findWithin depth) (fun d _ e => resolve_ne_tooDeep d) ?_ h rfl
    rintro d - target ht e (he | ⟨text, origin, -, he⟩)
    · exact read_ne_tooDeep he
    · rintro rfl
      exact findWithin_ne_tooDeep hinclude depth (file :: opened) text origin target hroom'
        (Workspace.isPlain_target? habsolute hinclude ht).absolute (Workspace.knows_target? habsolute hinclude ht _) he

/-- A listing with room is not cut off. -/
theorem listWithin_ne_tooDeep (hinclude : ∀ dir ∈ w.includePaths, dir.isAbsolute = true) :
    ∀ (depth : Nat) (opened : List Path) (content : Text) (file : Path), Room s.disk start opened depth →
      file.isAbsolute = true → s.disk.Knows [start] file →
      answer (listWithin w kind depth content file) ⟨s, opened ++ V⟩ ≠ .error .tooDeep
  | 0, _, _, _, hroom, _, _ => absurd hroom.depth_pos (Nat.lt_irrefl 0)
  | depth + 1, opened, content, file, hroom, habsolute, hfile => by
    rw [answer_listWithin_succ]
    by_cases hopen : file ∈ opened ++ V
    · rw [if_pos hopen]
      nofun
    rw [if_neg hopen]
    intro h
    have hroom' := hroom.opening (fun hm => hopen (List.mem_append_left V hm)) hfile
    refine collect_fault (P := (· ≠ .tooDeep)) (steady_listWithin depth) (fun d _ e => resolve_ne_tooDeep d) ?_ h rfl
    rintro d - target ht e (he | ⟨text, -, he⟩)
    · exact read_ne_tooDeep he
    · rintro rfl
      exact listWithin_ne_tooDeep hinclude depth (file :: opened) text target hroom'
        (Workspace.isPlain_target? habsolute hinclude ht).absolute (Workspace.knows_target? habsolute hinclude ht _) he

/-- From the bound on, the depth makes no difference to a search. -/
theorem findWithin_eq_of_le (hfile : file.isAbsolute = true)
    (hinclude : ∀ dir ∈ w.includePaths, dir.isAbsolute = true) {depth : Nat}
    (hdepth : 2 * s.disk.files.card + 2 ≤ depth) (content member : Text) :
    findWithin w depth content member file ⟨s, V⟩ =
      findWithin w (2 * s.disk.files.card + 2) content member file ⟨s, V⟩ := by
  have hroom : Room s.disk file [] (2 * s.disk.files.card + 2) := Room.ofDepth (Nat.le_refl _) file
  refine agrees_findWithin hdepth content member file _ ?_
  exact findWithin_ne_tooDeep hinclude _ [] content member file hroom hfile (Or.inl (List.mem_singleton_self file))

/-- From the bound on, the depth makes no difference to a listing. -/
theorem listWithin_eq_of_le (hfile : file.isAbsolute = true)
    (hinclude : ∀ dir ∈ w.includePaths, dir.isAbsolute = true) {depth : Nat}
    (hdepth : 2 * s.disk.files.card + 2 ≤ depth) (content : Text) :
    listWithin w kind depth content file ⟨s, V⟩ =
      listWithin w kind (2 * s.disk.files.card + 2) content file ⟨s, V⟩ := by
  have hroom : Room s.disk file [] (2 * s.disk.files.card + 2) := Room.ofDepth (Nat.le_refl _) file
  refine agrees_listWithin hdepth content file _ ?_
  exact listWithin_ne_tooDeep hinclude _ [] content file hroom hfile (Or.inl (List.mem_singleton_self file))

/-- The walks are run with more depth than the bound. -/
theorem two_mul_files_lt_depthLimit (d : Disk) : 2 * d.files.card + 2 < depthLimit d := by
  have hcount := d.card_files_le
  unfold depthLimit
  omega

end Forwarding

/-! ## The faults of a listing -/

/-- A declaration in a file that can be reached leads to a manifest with this fault. -/
def Unresolved (w : Workspace) (s : Session) (file : Path) (e : Fault) : Prop :=
  ∃ f text d, Reaches w s file f ∧ s.reads f = .ok text ∧ d ∈ Reexport.scan text ∧
    answer (w.resolve f d.path) s = .error e

namespace Forwarding

variable {w : Workspace} {s : Session} {kind : MemberKind} {start : Path}

/-- Where every file that can be reached can be read, a listing that is not cut off ends with the fault of a manifest. -/
theorem listWithin_fault (hreads : ∀ f, Reaches w s start f → ∃ text, s.reads f = .ok text) :
    ∀ (depth : Nat) (V : OpenFiles) (text : Text) (file : Path) (e : Fault), Reaches w s start file →
      s.reads file = .ok text → answer (listWithin w kind depth text file) ⟨s, V⟩ = .error e →
      e = .tooDeep ∨ Unresolved w s start e
  | 0, _, _, _, _, _, _, h => Or.inl (Except.error.inj h).symm
  | depth + 1, V, text, file, e, hfile, hread, h => by
    rw [answer_listWithin_succ] at h
    split at h
    · cases h
    refine collect_fault (P := fun e => e = .tooDeep ∨ Unresolved w s start e) (steady_listWithin depth) ?_ ?_ h
    · exact fun d hd e he => Or.inr ⟨file, text, d, hfile, hread, hd, he⟩
    · intro d hd target ht e he
      have htarget : Reaches w s start target := hfile.tail ⟨text, hread, d, hd, ht⟩
      rcases he with he | ⟨text', hread', he⟩
      · obtain ⟨text', hread'⟩ := hreads target htarget
        rw [hread'] at he
        cases he
      · exact listWithin_fault hreads depth (file :: V) text' target e htarget hread' he

/-- Where every file that can be reached can be read, what a module shows ends with no fault but that of a manifest. -/
theorem visibleMembers_fault {e : Fault} (hstart : start.isAbsolute = true)
    (hinclude : ∀ dir ∈ w.includePaths, dir.isAbsolute = true)
    (hreads : ∀ f, Reaches w s start f → ∃ text, s.reads f = .ok text)
    (h : answer (w.visibleMembers start kind) s = .error e) : Unresolved w s start e := by
  obtain ⟨text, hread⟩ := hreads start .refl
  rw [w.answer_visibleMembers, Session.reads_bind hread, answer_list] at h
  rcases bind_eq_error.1 h with h | ⟨ms, -, h⟩
  · refine (listWithin_fault hreads _ [] text start e .refl hread h).resolve_left ?_
    rintro rfl
    have hroom := Room.ofDepth (Nat.le_of_lt (two_mul_files_lt_depthLimit s.disk)) start
    exact listWithin_ne_tooDeep hinclude _ [] text start hroom hstart (Or.inl (List.mem_singleton_self start)) h
  · cases h

end Forwarding

/-! ## Walks end -/

namespace BothSpellings

/-- A text that forwards its own file by the other of its two spellings. -/
def text : Text := "@forward \"//a\";\n$gap: 1px;".toList

/-- A disk that holds this text as `/a.scss`. -/
def disk : Disk :=
  (Disk.empty ⟨.root, []⟩ ⟨.root, []⟩).insert ["a.scss".toList] (.file (Utf8.encode text))

def workspace : Workspace := ⟨⟨.root, []⟩, [⟨.root, []⟩]⟩

/-- A path at which no file stands. -/
def start : Path := ⟨.root, ["start.scss".toList]⟩

def startText : Text := "@forward \"./a\";".toList

end BothSpellings

section Results

variable (w : Workspace) (s : Session) (kind : MemberKind) (V : OpenFiles) (content member : Text)

/-- **Walks end.** From an absolute path, with any files open, following a member and listing all members take no more
nested calls than twice the number of regular files and two: with that depth neither is cut off, with any greater depth
both do the same, value and state, and so do the walks as they are run. -/
theorem walks_end {file : Path} (hfile : file.isAbsolute = true)
    (hinclude : ∀ dir ∈ w.includePaths, dir.isAbsolute = true) {depth : Nat}
    (hdepth : 2 * s.disk.files.card + 2 ≤ depth) :
    (answer (findWithin w depth content member file) ⟨s, V⟩ ≠ .error .tooDeep ∧
      findWithin w depth content member file ⟨s, V⟩ =
        findWithin w (2 * s.disk.files.card + 2) content member file ⟨s, V⟩ ∧
      find w content member file ⟨s, V⟩ = findWithin w depth content member file ⟨s, V⟩) ∧
    (answer (listWithin w kind depth content file) ⟨s, V⟩ ≠ .error .tooDeep ∧
      listWithin w kind depth content file ⟨s, V⟩ =
        listWithin w kind (2 * s.disk.files.card + 2) content file ⟨s, V⟩ ∧
      list w kind content file ⟨s, V⟩ = listWithin w kind depth content file ⟨s, V⟩) := by
  have hlimit := Nat.le_of_lt (two_mul_files_lt_depthLimit s.disk)
  have hfind : ∀ depth', 2 * s.disk.files.card + 2 ≤ depth' → findWithin w depth' content member file ⟨s, V⟩ =
      findWithin w (2 * s.disk.files.card + 2) content member file ⟨s, V⟩ := fun depth' h =>
    findWithin_eq_of_le hfile hinclude h content member
  have hlist : ∀ depth', 2 * s.disk.files.card + 2 ≤ depth' → listWithin w kind depth' content file ⟨s, V⟩ =
      listWithin w kind (2 * s.disk.files.card + 2) content file ⟨s, V⟩ := fun depth' h =>
    listWithin_eq_of_le hfile hinclude h content
  refine ⟨⟨?_, hfind depth hdepth, ?_⟩, ?_, hlist depth hdepth, ?_⟩
  · exact findWithin_ne_tooDeep hinclude depth [] content member file (Room.ofDepth hdepth file) hfile
      (Or.inl (List.mem_singleton_self file))
  · exact (hfind _ hlimit).trans (hfind depth hdepth).symm
  · exact listWithin_ne_tooDeep hinclude depth [] content file (Room.ofDepth hdepth file) hfile
      (Or.inl (List.mem_singleton_self file))
  · exact (hlist _ hlimit).trans (hlist depth hdepth).symm

open BothSpellings in
/-- The bound is met: a walk that starts outside the disk and opens its only file under both spellings takes four
nested calls, the last of them refused, and is cut off with three. -/
theorem walks_end_both_spellings :
    start.isAbsolute = true ∧ (∀ dir ∈ workspace.includePaths, dir.isAbsolute = true) ∧
    2 * disk.files.card + 2 = 4 ∧
    answer (findWithin workspace 3 startText "$gap".toList start) ⟨.start disk, []⟩ = .error .tooDeep ∧
    answer (listWithin workspace .var 3 startText start) ⟨.start disk, []⟩ = .error .tooDeep ∧
    (answer (findWithin workspace 4 startText "$gap".toList start) ⟨.start disk, []⟩ ≠ .error .tooDeep ∧
      findWithin workspace 4 startText "$gap".toList start ⟨.start disk, []⟩ =
        findWithin workspace (2 * disk.files.card + 2) startText "$gap".toList start ⟨.start disk, []⟩ ∧
      find workspace startText "$gap".toList start ⟨.start disk, []⟩ =
        findWithin workspace 4 startText "$gap".toList start ⟨.start disk, []⟩) ∧
    (answer (listWithin workspace .var 4 startText start) ⟨.start disk, []⟩ ≠ .error .tooDeep ∧
      listWithin workspace .var 4 startText start ⟨.start disk, []⟩ =
        listWithin workspace .var (2 * disk.files.card + 2) startText start ⟨.start disk, []⟩ ∧
      list workspace .var startText start ⟨.start disk, []⟩ =
        listWithin workspace .var 4 startText start ⟨.start disk, []⟩) := by
  have hfiles : 2 * disk.files.card + 2 = 4 := by decide +kernel
  have hinclude : ∀ dir ∈ workspace.includePaths, dir.isAbsolute = true := by decide
  refine ⟨rfl, hinclude, hfiles, by decide +kernel, by decide +kernel, ?_⟩
  exact walks_end workspace (.start disk) .var [] startText "$gap".toList rfl hinclude (Nat.le_of_eq hfiles)

/-! ## The open files -/

/-- However the work ends, the open files are those that it began with. -/
def Restores {α : Type} (x : Expansion α) : Prop :=
  ∀ u, (∀ a u', x u = .ok a u' → u'.openFiles = u.openFiles) ∧
    ∀ e u', x u = .error e u' → u'.openFiles = u.openFiles

theorem Steady.restores {α : Type} {x : Expansion α} (h : Steady x) : Restores x := by
  intro u
  have hafter : (after x u).openFiles = u.openFiles := (h.after_equiv u).2
  constructor
  · intro a u' hx
    simpa only [after, hx] using hafter
  · intro e u' hx
    simpa only [after, hx] using hafter

/-- **Every walk leaves the open files as it found them**, whether it ends by a value or by a fault, and so does every
nested call on its way. -/
theorem openFiles_restored (file : Path) :
    Restores (find w content member file) ∧ Restores (list w kind content file) ∧
      ∀ depth, Restores (findWithin w depth content member file) ∧ Restores (listWithin w kind depth content file) :=
  ⟨(steady_find content).restores, (steady_list content).restores, fun depth =>
    ⟨(steady_findWithin depth content member file).restores, (steady_listWithin depth content file).restores⟩⟩

-- around the ring, and then into a file that cannot be opened
example :
    let text : Text := "@forward \"./b\";\n@forward \"./c\";".toList
    let walk : Walk := ⟨.start (Ring.disk.insert ["c.scss".toList] .lockedFile), [⟨.root, ["d.scss".toList]⟩]⟩
    answer (list Ring.workspace .var text Ring.fileA) walk = .error (.read (.denied ⟨.root, ["c.scss".toList]⟩)) ∧
      (after (list Ring.workspace .var text Ring.fileA) walk).openFiles = [⟨.root, ["d.scss".toList]⟩] := by
  decide +kernel

end Results

end SassModules
