import SassModules.Proofs.Candidates
import SassModules.Exposure

/-!
# Expanding files, one step at a time

Following one member and listing all of them are walks over files, with the set of open files as a second state. A walk
is steady like a query: it ends with the open files it began with and in a session that looks the same
(`steady_findWithin`, `steady_listWithin`). So each step is an equation between answers at one session and one set of
open files: a declaration is skipped or followed (`answer_followFirst_skip`, `answer_followFirst_hit`,
`answer_collect_skip`, `answer_collect_hit`), and a file that is open already ends the walk (`answer_findWithin_succ`,
`answer_listWithin_succ`).
-/

namespace SassModules

open Session

/-! ## Walks -/

namespace Walk

variable {α : Type} {s : Session} {V : OpenFiles} {file : Path}

instance : Setoid Walk where
  r u v := u.session ≈ v.session ∧ u.openFiles = v.openFiles
  iseqv := ⟨fun _ => ⟨Setoid.refl _, rfl⟩, fun h => ⟨Setoid.symm h.1, h.2.symm⟩,
    fun h h' => ⟨Setoid.trans h.1 h'.1, h.2.trans h'.2⟩⟩

theorem answer_lift (q : Query α) (u : Walk) : answer (lift q) u = answer q u.session := by
  simp only [answer, lift]
  cases q u.session <;> rfl

theorem after_lift (q : Query α) (u : Walk) : after (lift q) u = { u with session := after q u.session } := by
  simp only [after, lift]
  cases q u.session <;> rfl

theorem steady_lift {q : Query α} (h : Steady q) : Steady (lift q) where
  answer_eq := by
    intro u v huv
    rw [answer_lift, answer_lift, h.answer_eq huv.1]
  after_equiv := by
    intro u
    rw [after_lift]
    exact ⟨h.after_equiv _, rfl⟩

/-- Work on a file that is not open yet; an open one is refused by other work. -/
def guarded (file : Path) (refuse work : Expansion α) : Expansion α := do
  if ← isOpen file then refuse else expanding file work

theorem guarded_open {refuse work : Expansion α} {u : Walk} (h : file ∈ u.openFiles) :
    guarded file refuse work u = refuse u := by
  have hc : u.openFiles.contains file = true := by simpa using h
  show (if u.openFiles.contains file = true then refuse else expanding file work) u = _
  rw [if_pos hc]

theorem guarded_closed {refuse work : Expansion α} {u : Walk} (h : file ∉ u.openFiles) :
    guarded file refuse work u = expanding file work u := by
  have hc : ¬ u.openFiles.contains file = true := by simpa using h
  show (if u.openFiles.contains file = true then refuse else expanding file work) u = _
  rw [if_neg hc]

theorem answer_expanding (work : Expansion α) (u : Walk) :
    answer (expanding file work) u = answer work { u with openFiles := file :: u.openFiles } := by
  simp only [answer, expanding]
  cases work { u with openFiles := file :: u.openFiles } <;> rfl

/-- A file that was not open leaves no trace among the open files. -/
theorem after_expanding_equiv {work : Expansion α} {u : Walk} (hw : Steady work) (h : file ∉ u.openFiles) :
    after (expanding file work) u ≈ u := by
  have hafter := hw.after_equiv { u with openFiles := file :: u.openFiles }
  have hopen : (after work { u with openFiles := file :: u.openFiles }).openFiles.filter (· != file) = u.openFiles := by
    rw [hafter.2]
    simp only [List.filter_cons, bne_self_eq_false, Bool.false_eq_true, ↓reduceIte]
    refine List.filter_eq_self.2 fun p hp => ?_
    simpa using fun e : p = file => h (e ▸ hp)
  have heq : after (expanding file work) u = ⟨(after work { u with openFiles := file :: u.openFiles }).session,
      (after work { u with openFiles := file :: u.openFiles }).openFiles.filter (· != file)⟩ := by
    simp only [after, expanding]
    cases work { u with openFiles := file :: u.openFiles } <;> rfl
  rw [heq, hopen]
  exact ⟨hafter.1, rfl⟩

theorem answer_guarded (refuse work : Expansion α) : answer (guarded file refuse work) ⟨s, V⟩ =
    if file ∈ V then answer refuse ⟨s, V⟩ else answer work ⟨s, file :: V⟩ := by
  split
  · rename_i h
    simp only [answer, guarded_open (u := ⟨s, V⟩) h]
  · rename_i h
    rw [← answer_expanding work ⟨s, V⟩]
    simp only [answer, guarded_closed (u := ⟨s, V⟩) h]

theorem steady_guarded {refuse work : Expansion α} (hr : Steady refuse) (hw : Steady work) :
    Steady (guarded file refuse work) where
  answer_eq := by
    rintro ⟨s, V⟩ ⟨t, U⟩ ⟨hst, hVU⟩
    obtain rfl : V = U := hVU
    have hrefuse := hr.answer_eq (s := ⟨s, V⟩) (t := ⟨t, V⟩) ⟨hst, rfl⟩
    have hwork := hw.answer_eq (s := ⟨s, file :: V⟩) (t := ⟨t, file :: V⟩) ⟨hst, rfl⟩
    rw [answer_guarded, answer_guarded, hrefuse, hwork]
  after_equiv := by
    intro u
    by_cases h : file ∈ u.openFiles
    · have hafter := hr.after_equiv u
      simp only [after, guarded_open h] at hafter ⊢
      exact hafter
    · have hafter := after_expanding_equiv hw h
      simp only [after, guarded_closed h] at hafter ⊢
      exact hafter

end Walk

open Walk

namespace Forwarding

variable {w : Workspace} {kind : MemberKind} {s : Session} {V : OpenFiles} {file target : Path} {member origin : Text}
  {d : Reexport} {ds : List Reexport}

/-! ## Following one member -/

section Following

variable {next : Text → Text → Path → Expansion (Option Origin)} {rest : Expansion (Option Origin)}

/-- Follow a declaration whose prefix fits; when its module does not resolve, go on with the rest. -/
def followFit (w : Workspace) (next : Text → Text → Path → Expansion (Option Origin)) (file : Path) (d : Reexport)
    (origin : Text) (rest : Expansion (Option Origin)) : Expansion (Option Origin) := do
  match ← w.resolve file d.path with
  | none =>
    Session.report (.forwardFailed d.path)
    rest
  | some target =>
    Session.report (.forwardResolved target)
    let content ← Session.fileText target
    match ← next content origin target with
    | some deeper => return some deeper
    | none => return some ⟨origin, target⟩

theorem followFirst_cons_of_none (h : Name.stripPrefix? d.pre member = none) :
    followFirst w next member file (d :: ds) = followFirst w next member file ds := by
  rw [followFirst, h]

variable (w file ds next) in
/-- Following a declaration whose prefix fits, after a report on the prefix. -/
theorem followFirst_cons_of_some (h : Name.stripPrefix? d.pre member = some origin) :
    ∃ e : Query PUnit, Steady e ∧ (∀ s, answer e s = .ok ⟨⟩) ∧ followFirst w next member file (d :: ds) =
      (lift e >>= fun _ => followFit w next file d origin (followFirst w next member file ds)) := by
  rw [followFirst, h]
  cases d.pre with
  | none => exact ⟨pure ⟨⟩, steady_pure _, fun _ => rfl, rfl⟩
  | some pre => exact ⟨_, steady_report (.prefixMatched member origin pre), fun _ => rfl, rfl⟩

theorem steady_followFit (hnext : ∀ content member file, Steady (next content member file)) (hrest : Steady rest) :
    Steady (followFit w next file d origin rest) :=
  (steady_lift (w.steady_resolve file d.path)).bind (Steady.option
    (fun target => (steady_lift (steady_report _)).bind fun _ => (steady_lift (steady_fileText target)).bind
      fun content => (hnext content origin target).bind (Steady.option (fun _ => steady_pure _) (steady_pure _)))
    ((steady_lift (steady_report _)).bind fun _ => hrest))

theorem steady_followFirst (hnext : ∀ content member file, Steady (next content member file)) :
    ∀ ds : List Reexport, Steady (followFirst w next member file ds)
  | [] => steady_pure none
  | d :: ds => by
    have ih := steady_followFirst hnext ds
    cases h : Name.stripPrefix? d.pre member with
    | none => rw [followFirst_cons_of_none h]; exact ih
    | some origin =>
      obtain ⟨e, he, -, heq⟩ := followFirst_cons_of_some w file ds next h
      rw [heq]
      exact (steady_lift he).bind fun _ => steady_followFit hnext ih

theorem answer_followFit (hnext : ∀ content member file, Steady (next content member file)) (hrest : Steady rest) :
    answer (followFit w next file d origin rest) ⟨s, V⟩ = answer (w.resolve file d.path) s >>= fun found =>
      found.elim (answer rest ⟨s, V⟩) fun target => do
        let content ← (s.reads target).mapError .read
        let deeper ← answer (next content origin target) ⟨s, V⟩
        return some (deeper.getD ⟨origin, target⟩) := by
  have hlast : ∀ (target : Path) (found : Option Origin), Steady (match found with
      | some deeper => return some deeper
      | none => return some ⟨origin, target⟩ : Expansion (Option Origin)) :=
    fun target => Steady.option (fun _ => steady_pure _) (steady_pure _)
  have hbody : ∀ (target : Path) content, Steady (next content origin target >>= fun found => match found with
      | some deeper => return some deeper
      | none => return some ⟨origin, target⟩ : Expansion (Option Origin)) :=
    fun target content => (hnext content origin target).bind (hlast target)
  have hfailed := steady_lift (steady_report (.forwardFailed d.path))
  have hreport : ∀ target, Steady (lift (Session.report (.forwardResolved target))) :=
    fun target => steady_lift (steady_report _)
  have hread : ∀ target, Steady (lift (Session.fileText target)) := fun target => steady_lift (steady_fileText target)
  refine ((steady_lift (w.steady_resolve file d.path)).answer_bind (Steady.option (fun target =>
    (hreport target).bind fun _ => (hread target).bind (hbody target)) (hfailed.bind fun _ => hrest)) _).trans ?_
  rw [answer_lift]
  congr 1
  funext found
  cases found with
  | none => exact hfailed.answer_bind_ok rfl hrest
  | some target =>
    refine ((hreport target).answer_bind_ok rfl ((hread target).bind (hbody target))).trans ?_
    refine ((hread target).answer_bind (hbody target) _).trans ?_
    rw [answer_lift, answer_fileText]
    show _ = (s.reads target).mapError Fault.read >>= _
    congr 1
    funext content
    refine ((hnext content origin target).answer_bind (hlast target) _).trans ?_
    congr 1
    funext deeper
    cases deeper <;> rfl

theorem answer_followFirst_cons (hnext : ∀ content member file, Steady (next content member file))
    (hp : Name.stripPrefix? d.pre member = some origin) : answer (followFirst w next member file (d :: ds)) ⟨s, V⟩ =
      answer (followFit w next file d origin (followFirst w next member file ds)) ⟨s, V⟩ := by
  obtain ⟨e, he, hok, heq⟩ := followFirst_cons_of_some w file ds next hp
  have hreport : answer (lift e) ⟨s, V⟩ = .ok ⟨⟩ := by rw [answer_lift]; exact hok s
  rw [heq]
  exact (steady_lift he).answer_bind_ok hreport (steady_followFit hnext (steady_followFirst hnext ds))

/-- A declaration whose prefix does not fit, or whose module does not resolve, is skipped. -/
theorem answer_followFirst_skip (hnext : ∀ content member file, Steady (next content member file))
    (h : Name.stripPrefix? d.pre member = none ∨ answer (w.resolve file d.path) s = .ok none) :
    answer (followFirst w next member file (d :: ds)) ⟨s, V⟩ = answer (followFirst w next member file ds) ⟨s, V⟩ := by
  cases hp : Name.stripPrefix? d.pre member with
  | none => rw [followFirst_cons_of_none hp]
  | some origin =>
    have ht : answer (w.resolve file d.path) s = .ok none := by
      rcases h with h | h
      · rw [hp] at h; cases h
      · exact h
    rw [answer_followFirst_cons hnext hp, answer_followFit hnext (steady_followFirst hnext ds), ht]
    rfl

/-- The first declaration that fits and resolves decides. -/
theorem answer_followFirst_hit (hnext : ∀ content member file, Steady (next content member file))
    (hp : Name.stripPrefix? d.pre member = some origin) (ht : w.target? s file d.path = some target) :
    answer (followFirst w next member file (d :: ds)) ⟨s, V⟩ = do
      let content ← (s.reads target).mapError .read
      let found ← answer (next content origin target) ⟨s, V⟩
      return some (found.getD ⟨origin, target⟩) := by
  rw [answer_followFirst_cons hnext hp, answer_followFit hnext (steady_followFirst hnext ds),
    Workspace.target?_eq_some_iff.1 ht]
  rfl

/-- A manifest at fault behind a declaration that fits ends the search. -/
theorem answer_followFirst_fault {e : Fault} (hnext : ∀ content member file, Steady (next content member file))
    (hp : Name.stripPrefix? d.pre member = some origin) (he : answer (w.resolve file d.path) s = .error e) :
    answer (followFirst w next member file (d :: ds)) ⟨s, V⟩ = .error e := by
  rw [answer_followFirst_cons hnext hp, answer_followFit hnext (steady_followFirst hnext ds), he]
  rfl

theorem findWithin_succ (depth : Nat) (content : Text) : findWithin w (depth + 1) content member file =
    guarded file (do Session.report (.cycle file); return none)
      (do followFirst w (findWithin w depth) member file (← Session.reexports content)) := rfl

theorem steady_findWithin : ∀ (depth : Nat) (content member : Text) (file : Path),
    Steady (findWithin w depth content member file)
  | 0, _, _, _ => steady_throw _
  | depth + 1, content, member, file => by
    rw [findWithin_succ]
    exact steady_guarded ((steady_lift (steady_report _)).bind fun _ => steady_pure _)
      ((steady_lift (steady_reexports content)).bind fun ds => steady_followFirst (steady_findWithin depth) ds)

/-- An open file ends the search; any other is opened for its declarations. -/
theorem answer_findWithin_succ (depth : Nat) (content : Text) :
    answer (findWithin w (depth + 1) content member file) ⟨s, V⟩ = if file ∈ V then .ok none
      else answer (followFirst w (findWithin w depth) member file (Reexport.scan content)) ⟨s, file :: V⟩ := by
  have hscan : answer (lift (Session.reexports content)) ⟨s, file :: V⟩ = .ok (Reexport.scan content) := by
    rw [answer_lift]
    exact answer_reexports content s
  rw [findWithin_succ, answer_guarded]
  congr 1
  exact (steady_lift (steady_reexports content)).answer_bind_ok hscan (steady_followFirst (steady_findWithin depth) _)

theorem answer_find (content : Text) : answer (find w content member file) ⟨s, V⟩ =
    answer (findWithin w (depthLimit s.disk) content member file) ⟨s, V⟩ := answer_get_bind _ _

end Following

/-! ## Listing all members -/

section Listing

variable {next : Text → Path → Expansion (List Member)} {rest : Expansion (List Member)}

/-- The public definitions of a kind in a text. -/
def publicIn (kind : MemberKind) (content : Text) (file : Path) : List Member :=
  (Member.scan kind content file).filter fun m => !Name.isPrivate m.name

/-- The members as they are named in front of a declaration. -/
def renamedBy (d : Reexport) (ms : List Member) : List Member :=
  ms.map fun m => m.rename (Name.addPrefix d.pre m.name)

/-- Collect what a declaration leads to, and then the rest. -/
def collectFound (kind : MemberKind) (next : Text → Path → Expansion (List Member)) (d : Reexport) (target : Path)
    (rest : Expansion (List Member)) : Expansion (List Member) := do
  let content ← Session.fileText target
  let own := (← Session.members kind content target).filter fun m => !Name.isPrivate m.name
  let nested ← next content target
  let rest ← rest
  return (own ++ nested).map (fun m => m.rename (Name.addPrefix d.pre m.name)) ++ rest

theorem collect_cons : collect w kind next file (d :: ds) = (lift (w.resolve file d.path) >>= fun found =>
    match found with
    | none => lift (Session.report (.forwardFailed d.path)) >>= fun _ => collect w kind next file ds
    | some target => collectFound kind next d target (collect w kind next file ds)) := rfl

theorem steady_collectFound (hnext : ∀ content file, Steady (next content file)) (hrest : Steady rest) :
    Steady (collectFound kind next d target rest) :=
  (steady_lift (steady_fileText target)).bind fun content => (steady_lift (steady_members kind content target)).bind
    fun _ => (hnext content target).bind fun _ => hrest.bind fun _ => steady_pure _

theorem steady_collect (hnext : ∀ content file, Steady (next content file)) :
    ∀ ds : List Reexport, Steady (collect w kind next file ds)
  | [] => steady_pure []
  | d :: ds => by
    have ih : Steady (collect w kind next file ds) := steady_collect hnext ds
    rw [collect_cons]
    exact (steady_lift (w.steady_resolve file d.path)).bind (Steady.option (fun _ => steady_collectFound hnext ih)
      ((steady_lift (steady_report _)).bind fun _ => ih))

theorem answer_collectFound (hnext : ∀ content file, Steady (next content file)) (hrest : Steady rest) :
    answer (collectFound kind next d target rest) ⟨s, V⟩ = do
      let content ← (s.reads target).mapError .read
      let nested ← answer (next content target) ⟨s, V⟩
      let others ← answer rest ⟨s, V⟩
      return renamedBy d (publicIn kind content target ++ nested) ++ others := by
  refine ((steady_lift (steady_fileText target)).answer_bind (fun content =>
    (steady_lift (steady_members kind content target)).bind fun _ => (hnext content target).bind fun _ =>
      hrest.bind fun _ => steady_pure _) _).trans ?_
  rw [answer_lift, answer_fileText]
  congr 1
  funext content
  have hscan : answer (lift (Session.members kind content target)) ⟨s, V⟩ = .ok (Member.scan kind content target) := by
    rw [answer_lift]
    exact answer_members kind content target s
  refine ((steady_lift (steady_members kind content target)).answer_bind_ok hscan
    ((hnext content target).bind fun _ => hrest.bind fun _ => steady_pure _)).trans ?_
  refine ((hnext content target).answer_bind (fun _ => hrest.bind fun _ => steady_pure _) _).trans ?_
  congr 1
  funext nested
  exact hrest.answer_bind (fun _ => steady_pure _) _

theorem answer_collect_cons (hnext : ∀ content file, Steady (next content file)) :
    answer (collect w kind next file (d :: ds)) ⟨s, V⟩ = answer (w.resolve file d.path) s >>= fun found =>
      found.elim (answer (collect w kind next file ds) ⟨s, V⟩) fun target => do
        let content ← (s.reads target).mapError .read
        let nested ← answer (next content target) ⟨s, V⟩
        let others ← answer (collect w kind next file ds) ⟨s, V⟩
        return renamedBy d (publicIn kind content target ++ nested) ++ others := by
  have hreport := steady_lift (steady_report (.forwardFailed d.path))
  have hrest : Steady (collect w kind next file ds) := steady_collect hnext ds
  rw [collect_cons]
  refine ((steady_lift (w.steady_resolve file d.path)).answer_bind
    (Steady.option (fun _ => steady_collectFound hnext hrest) (hreport.bind fun _ => hrest)) _).trans ?_
  rw [answer_lift]
  congr 1
  funext found
  cases found with
  | none => exact hreport.answer_bind_ok rfl hrest
  | some target => exact answer_collectFound hnext hrest

/-- A declaration whose module does not resolve is skipped. -/
theorem answer_collect_skip (hnext : ∀ content file, Steady (next content file))
    (ht : answer (w.resolve file d.path) s = .ok none) :
    answer (collect w kind next file (d :: ds)) ⟨s, V⟩ = answer (collect w kind next file ds) ⟨s, V⟩ := by
  rw [answer_collect_cons hnext, ht]
  rfl

/-- Any other is expanded, and its prefix is put in front of everything it leads to. -/
theorem answer_collect_hit (hnext : ∀ content file, Steady (next content file))
    (ht : w.target? s file d.path = some target) :
    answer (collect w kind next file (d :: ds)) ⟨s, V⟩ = do
      let content ← (s.reads target).mapError .read
      let nested ← answer (next content target) ⟨s, V⟩
      let others ← answer (collect w kind next file ds) ⟨s, V⟩
      return renamedBy d (publicIn kind content target ++ nested) ++ others := by
  rw [answer_collect_cons hnext, Workspace.target?_eq_some_iff.1 ht]
  rfl

/-- A manifest at fault ends the listing. -/
theorem answer_collect_fault {e : Fault} (hnext : ∀ content file, Steady (next content file))
    (he : answer (w.resolve file d.path) s = .error e) :
    answer (collect w kind next file (d :: ds)) ⟨s, V⟩ = .error e := by
  rw [answer_collect_cons hnext, he]
  rfl

/-- In a listing that answers, every declaration resolves without a fault, and what it leads to is read and expanded. -/
theorem collect_eq_ok {ms : List Member} (hnext : ∀ content file, Steady (next content file)) : ∀ {ds : List Reexport},
    answer (collect w kind next file ds) ⟨s, V⟩ = .ok ms → ∀ d ∈ ds, ∃ found,
      answer (w.resolve file d.path) s = .ok found ∧ ∀ target ∈ found, ∃ text nested, s.reads target = .ok text ∧
        answer (next text target) ⟨s, V⟩ = .ok nested
  | [], _, d, hd => absurd hd List.not_mem_nil
  | d' :: ds, h, d, hd => by
    rw [answer_collect_cons hnext] at h
    obtain ⟨found, hfound, h⟩ := bind_eq_ok.1 h
    cases found with
    | none =>
      rcases List.mem_cons.1 hd with rfl | hd
      · exact ⟨none, hfound, fun _ ht => by cases ht⟩
      · exact collect_eq_ok hnext h d hd
    | some target =>
      obtain ⟨text, hread, h⟩ := bind_eq_ok.1 h
      obtain ⟨nested, hnested, h⟩ := bind_eq_ok.1 h
      obtain ⟨others, hothers, -⟩ := bind_eq_ok.1 h
      rcases List.mem_cons.1 hd with rfl | hd
      · refine ⟨some target, hfound, fun target' ht => ?_⟩
        cases ht
        exact ⟨text, nested, mapError_eq_ok.1 hread, hnested⟩
      · exact collect_eq_ok hnext hothers d hd

theorem listWithin_succ (depth : Nat) (content : Text) : listWithin w kind (depth + 1) content file =
    guarded file (do Session.report (.listingCycle file); return [])
      (do collect w kind (listWithin w kind depth) file (← Session.reexports content)) := rfl

theorem steady_listWithin : ∀ (depth : Nat) (content : Text) (file : Path),
    Steady (listWithin w kind depth content file)
  | 0, _, _ => steady_throw _
  | depth + 1, content, file => by
    rw [listWithin_succ]
    exact steady_guarded ((steady_lift (steady_report _)).bind fun _ => steady_pure _)
      ((steady_lift (steady_reexports content)).bind fun ds => steady_collect (steady_listWithin depth) ds)

/-- An open file contributes nothing more; any other is opened for its declarations. -/
theorem answer_listWithin_succ (depth : Nat) (content : Text) :
    answer (listWithin w kind (depth + 1) content file) ⟨s, V⟩ = if file ∈ V then .ok []
      else answer (collect w kind (listWithin w kind depth) file (Reexport.scan content)) ⟨s, file :: V⟩ := by
  have hscan : answer (lift (Session.reexports content)) ⟨s, file :: V⟩ = .ok (Reexport.scan content) := by
    rw [answer_lift]
    exact answer_reexports content s
  rw [listWithin_succ, answer_guarded]
  congr 1
  exact (steady_lift (steady_reexports content)).answer_bind_ok hscan (steady_collect (steady_listWithin depth) _)

theorem answer_list (content : Text) : answer (list w kind content file) ⟨s, V⟩ =
    answer (listWithin w kind (depthLimit s.disk) content file) ⟨s, V⟩ := answer_get_bind _ _

end Listing

/-! ## With some files open -/

/-- A walk as work in a session, with some files open. -/
def within {α : Type} (V : OpenFiles) (x : Expansion α) : Query α := fun s =>
  match x ⟨s, V⟩ with
  | .ok a u => .ok a u.session
  | .error e u => .error e u.session

theorem answer_within {α : Type} (V : OpenFiles) (x : Expansion α) (s : Session) :
    answer (within V x) s = answer x ⟨s, V⟩ := by
  simp only [answer, within]
  cases x ⟨s, V⟩ <;> rfl

theorem after_within {α : Type} (V : OpenFiles) (x : Expansion α) (s : Session) :
    after (within V x) s = (after x ⟨s, V⟩).session := by
  simp only [after, within]
  cases x ⟨s, V⟩ <;> rfl

theorem steady_within {α : Type} {x : Expansion α} (hx : Steady x) (V : OpenFiles) : Steady (within V x) where
  answer_eq := by
    intro s t h
    rw [answer_within, answer_within]
    exact hx.answer_eq ⟨h, rfl⟩
  after_equiv := by
    intro s
    rw [after_within]
    exact (hx.after_equiv ⟨s, V⟩).1

theorem answer_fresh {α : Type} (x : Expansion α) (s : Session) : answer (fresh x) s = answer x ⟨s, []⟩ :=
  answer_within [] x s

theorem steady_fresh {α : Type} {x : Expansion α} (hx : Steady x) : Steady (fresh x) := steady_within hx []

theorem steady_find (content : Text) : Steady (find w content member file) :=
  steady_get_bind (fun _ => steady_findWithin _ content member file) fun h => by rw [h.1.1]

theorem steady_list (content : Text) : Steady (list w kind content file) :=
  steady_get_bind (fun _ => steady_listWithin _ content file) fun h => by rw [h.1.1]

end Forwarding

/-! ## What a module exposes -/

namespace Workspace

open Forwarding

variable (w : Workspace) (s : Session) (file : Path) (member : Text)

theorem answer_definedIn (content : Text) : answer (definedIn content member file) s =
    .ok (if Name.isVariable member then (Variable.find? content member file).map .var
      else (Mixin.find? content member file).map .mixin) := by
  unfold definedIn
  cases Name.isVariable member with
  | true =>
    rw [if_pos rfl, answer_bind, answer_findVariable]
    rfl
  | false =>
    rw [if_neg Bool.false_ne_true, answer_bind, answer_findMixin]
    rfl

theorem steady_definedIn (content : Text) : Steady (definedIn content member file) :=
  Steady.ite ((steady_findVariable _ _ _).bind fun _ => steady_pure _)
    ((steady_findMixin _ _ _).bind fun _ => steady_pure _)

theorem steady_resolveMember : Steady (w.resolveMember file member) := by
  have hdefined : ∀ (e : Event) (content name : Text) (file : Path),
      Steady (report e >>= fun _ => definedIn content name file) :=
    fun _ content name file => (steady_report _).bind fun _ => steady_definedIn file name content
  refine (steady_fileText file).bind fun content => (steady_fresh (steady_find content)).bind ?_
  exact Steady.option (fun origin => (steady_fileText origin.file).bind fun target => hdefined _ target _ _)
    (hdefined _ content _ _)

/-- A member is looked for where the search leads, or in the module itself when no declaration fits. -/
theorem answer_resolveMember : answer (w.resolveMember file member) s = (do
    let content ← (s.reads file).mapError .read
    match ← answer (find w content member file) ⟨s, []⟩ with
    | some origin =>
      let target ← (s.reads origin.file).mapError .read
      answer (definedIn target origin.name origin.file) s
    | none => answer (definedIn content member file) s) := by
  have hreported : ∀ (e : Event) (content name : Text) (file : Path),
      Steady (report e >>= fun _ => definedIn content name file) :=
    fun _ content name file => (steady_report _).bind fun _ => steady_definedIn file name content
  have hforwarded : ∀ origin : Origin, Steady (do
      let target ← fileText origin.file
      report (.memberForwarded origin.file origin.name)
      definedIn target origin.name origin.file) :=
    fun origin => (steady_fileText _).bind fun target => hreported _ target _ _
  unfold resolveMember
  rw [answer_fileText_bind]
  · congr 1
    funext content
    rw [(steady_fresh (steady_find content)).answer_bind, answer_fresh]
    · congr 1
      funext found
      cases found with
      | none => exact answer_report_bind _ (steady_definedIn _ _ _) s
      | some origin =>
        refine (answer_fileText_bind origin.file (fun target => hreported _ target _ _) s).trans ?_
        congr 1
        funext target
        exact answer_report_bind _ (steady_definedIn _ _ _) s
    · exact Steady.option hforwarded (hreported _ content _ _)
  · exact fun content => (steady_fresh (steady_find content)).bind (Steady.option hforwarded (hreported _ content _ _))

/-- The public members of a module: its own, then the listing, each name once. -/
theorem answer_visibleMembers (kind : MemberKind) : answer (w.visibleMembers file kind) s = do
    let content ← (s.reads file).mapError .read
    let forwarded ← answer (list w kind content file) ⟨s, []⟩
    return publicMembers [] (Member.scan kind content file ++ forwarded) := by
  have hlist : ∀ content own, Steady (do
      let forwarded ← fresh (list w kind content file)
      return publicMembers [] (own ++ forwarded)) :=
    fun content own => (steady_fresh (steady_list content)).bind fun _ => steady_pure _
  unfold visibleMembers
  rw [answer_fileText_bind file fun content => (steady_members kind content file).bind (hlist content)]
  congr 1
  funext content
  have hmembers := answer_members kind content file s
  refine ((steady_members kind content file).answer_bind_ok hmembers (hlist content _)).trans ?_
  rw [(steady_fresh (steady_list content)).answer_bind fun _ => steady_pure _, answer_fresh]
  rfl

end Workspace

end SassModules
