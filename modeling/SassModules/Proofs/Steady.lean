import SassModules.Proofs.Lists
import SassModules.Resolution

/-!
# Answers, and work that leaves the state as it looked

Work in a session gives an answer and a new session. Reading a file fills the cache and reporting fills the log, but
neither changes what a later question is answered. `Steady x` says so of one piece of work: its answer is the same in
states that look alike, and the state it ends in, by a value or by a fault, looks like the one it began in. Steady work
composes (`Steady.bind`), and the answer of a composition is the composition of the answers in one and the same state
(`Steady.answer_bind`), so that proofs about answers need not thread the session. A sequence that gives a value is taken
apart from the front, one piece of steady work after the other (`Steady.gives_bind`).

Two sessions look alike when they have the same disk and reading a path gives the same in both, from the cache or from
the disk. Resolving a module path is steady (`steady_resolve`).
-/

namespace SassModules

/-! ## Answers -/

section Answers

variable {ε σ α β : Type}

/-- The value or the fault that some work ends with. -/
def answer (x : EStateM ε σ α) (s : σ) : Except ε α :=
  match x s with
  | .ok a _ => .ok a
  | .error e _ => .error e

/-- The state that some work ends in. -/
def after (x : EStateM ε σ α) (s : σ) : σ :=
  match x s with
  | .ok _ s' => s'
  | .error _ s' => s'

@[simp] theorem answer_pure (a : α) (s : σ) : answer (pure a : EStateM ε σ α) s = .ok a := rfl

theorem answer_bind (x : EStateM ε σ α) (k : α → EStateM ε σ β) (s : σ) :
    answer (x >>= k) s = answer x s >>= fun a => answer (k a) (after x s) := by
  simp only [answer, after, bind, EStateM.bind]
  cases x s <;> rfl

theorem after_bind (x : EStateM ε σ α) (k : α → EStateM ε σ β) (s : σ) :
    after (x >>= k) s = match answer x s with
      | .ok a => after (k a) (after x s)
      | .error _ => after x s := by
  simp only [answer, after, bind, EStateM.bind]
  cases x s <;> rfl

theorem answer_get_bind (k : σ → EStateM ε σ α) (s : σ) : answer (get >>= k) s = answer (k s) s := rfl

theorem after_get_bind (k : σ → EStateM ε σ α) (s : σ) : after (get >>= k) s = after (k s) s := rfl

theorem answer_tryCatch (x : EStateM ε σ α) (k : ε → EStateM ε σ α) (s : σ) :
    answer (tryCatch x k) s = match answer x s with
      | .ok a => .ok a
      | .error e => answer (k e) (after x s) := by
  simp only [answer, after, tryCatch, tryCatchThe, MonadExceptOf.tryCatch, EStateM.tryCatch]
  cases x s <;> rfl

theorem after_tryCatch (x : EStateM ε σ α) (k : ε → EStateM ε σ α) (s : σ) :
    after (tryCatch x k) s = match answer x s with
      | .ok _ => after x s
      | .error e => after (k e) (after x s) := by
  simp only [answer, after, tryCatch, tryCatchThe, MonadExceptOf.tryCatch, EStateM.tryCatch]
  cases x s <;> rfl

end Answers

/-! ## Steady work -/

section Steadiness

variable {ε σ α β : Type} [Setoid σ]

/-- Work whose answer depends on the look of the state only, and which leaves that look as it is. -/
structure Steady (x : EStateM ε σ α) : Prop where
  answer_eq : ∀ {s t : σ}, s ≈ t → answer x s = answer x t
  after_equiv : ∀ s : σ, after x s ≈ s

theorem steady_pure (a : α) : Steady (pure a : EStateM ε σ α) := ⟨fun _ => rfl, fun s => Setoid.refl s⟩

theorem steady_throw (e : ε) : Steady (throw e : EStateM ε σ α) := ⟨fun _ => rfl, fun s => Setoid.refl s⟩

/-- A change that does not show. -/
theorem steady_modify {f : σ → σ} (hf : ∀ s, f s ≈ s) : Steady (modify f : EStateM ε σ PUnit) :=
  ⟨fun _ => rfl, hf⟩

/-- A question about the look of the state. -/
theorem steady_ask {f : σ → α} (hf : ∀ {s t : σ}, s ≈ t → f s = f t) :
    Steady (do return f (← get) : EStateM ε σ α) :=
  ⟨fun h => congrArg Except.ok (hf h), fun s => Setoid.refl s⟩

/-- Steady work that depends on the look of the state. -/
theorem steady_get_bind {k : σ → EStateM ε σ α} (hk : ∀ s, Steady (k s)) (hlook : ∀ {s t : σ}, s ≈ t → k s = k t) :
    Steady (get >>= k) where
  answer_eq := by
    intro s t h
    rw [answer_get_bind, answer_get_bind, hlook h]
    exact (hk t).answer_eq h
  after_equiv := by
    intro s
    rw [after_get_bind]
    exact (hk s).after_equiv s

theorem Steady.bind {x : EStateM ε σ α} {k : α → EStateM ε σ β} (hx : Steady x) (hk : ∀ a, Steady (k a)) :
    Steady (x >>= k) where
  answer_eq := by
    intro s t h
    rw [SassModules.answer_bind, SassModules.answer_bind, hx.answer_eq h]
    cases answer x t with
    | error e => rfl
    | ok a =>
      have h' : after x s ≈ after x t :=
        Setoid.trans (hx.after_equiv s) (Setoid.trans h (Setoid.symm (hx.after_equiv t)))
      exact (hk a).answer_eq h'
  after_equiv := by
    intro s
    rw [after_bind]
    cases answer x s with
    | error e => exact hx.after_equiv s
    | ok a => exact Setoid.trans ((hk a).after_equiv _) (hx.after_equiv s)

/-- Steady work is followed in the state that it began in. -/
theorem Steady.answer_bind {x : EStateM ε σ α} {k : α → EStateM ε σ β} (hx : Steady x) (hk : ∀ a, Steady (k a))
    (s : σ) : answer (x >>= k) s = answer x s >>= fun a => answer (k a) s := by
  rw [SassModules.answer_bind]
  congr 1
  funext a
  exact (hk a).answer_eq (hx.after_equiv s)

/-- Steady work that gave a value goes on with it. -/
theorem Steady.answer_bind_ok {x : EStateM ε σ α} {k : α → EStateM ε σ β} {s : σ} {a : α} (hx : Steady x)
    (ha : answer x s = .ok a) (hk : Steady (k a)) : answer (x >>= k) s = answer (k a) s := by
  rw [SassModules.answer_bind, ha]
  exact hk.answer_eq (hx.after_equiv s)

theorem Steady.map {x : EStateM ε σ α} (hx : Steady x) (f : α → β) : Steady (f <$> x) :=
  hx.bind fun a => steady_pure (f a)

theorem Steady.tryCatch {x : EStateM ε σ α} {k : ε → EStateM ε σ α} (hx : Steady x) (hk : ∀ e, Steady (k e)) :
    Steady (tryCatch x k) where
  answer_eq := by
    intro s t h
    rw [answer_tryCatch, answer_tryCatch, hx.answer_eq h]
    cases answer x t with
    | ok a => rfl
    | error e =>
      exact (hk e).answer_eq (Setoid.trans (hx.after_equiv s) (Setoid.trans h (Setoid.symm (hx.after_equiv t))))
  after_equiv := by
    intro s
    rw [after_tryCatch]
    cases answer x s with
    | ok a => exact hx.after_equiv s
    | error e => exact Setoid.trans ((hk e).after_equiv _) (hx.after_equiv s)

theorem Steady.ite {c : Prop} [Decidable c] {x y : EStateM ε σ α} (hx : Steady x) (hy : Steady y) :
    Steady (if c then x else y) := by
  split
  · exact hx
  · exact hy

/-- Going on with what was found, or else with other work. -/
theorem Steady.option {k : Option α → EStateM ε σ β} (hsome : ∀ a, Steady (k (some a))) (hnone : Steady (k none)) :
    ∀ found, Steady (k found)
  | some a => hsome a
  | none => hnone

/-- The work gives a value in a state that looks like the given one. -/
def Gives (x : EStateM ε σ α) (s : σ) (a : α) : Prop := ∃ s', s' ≈ s ∧ answer x s' = .ok a

theorem gives_of_answer {x : EStateM ε σ α} {s : σ} {a : α} (h : answer x s = .ok a) : Gives x s a :=
  ⟨s, Setoid.refl s, h⟩

theorem Steady.answer_of_gives {x : EStateM ε σ α} {s : σ} {a : α} (hx : Steady x) (h : Gives x s a) :
    answer x s = .ok a := by
  obtain ⟨s', hs, ha⟩ := h
  rw [← hx.answer_eq hs, ha]

/-- A sequence that gives a value, taken apart: nothing need be known of what follows the steady work. -/
theorem Steady.gives_bind {x : EStateM ε σ α} {k : α → EStateM ε σ β} {s : σ} {b : β} (hx : Steady x)
    (h : Gives (x >>= k) s b) : ∃ a, answer x s = .ok a ∧ Gives (k a) s b := by
  obtain ⟨s', hs, hb⟩ := h
  rw [SassModules.answer_bind] at hb
  obtain ⟨a, ha, hb⟩ := bind_eq_ok.1 hb
  exact ⟨a, hx.answer_of_gives ⟨s', hs, ha⟩, after x s', Setoid.trans (hx.after_equiv s') hs, hb⟩

theorem eq_of_gives_pure {s : σ} {a b : α} (h : Gives (pure a : EStateM ε σ α) s b) : a = b := by
  obtain ⟨s', -, h⟩ := h
  exact Except.ok.inj h

end Steadiness

/-! ## Sessions that look alike -/

namespace Cache

theorem get?_insert_self (c : Cache) (p : Path) (t : Text) : (c.insert p t).get? p = some t := by
  simp [get?, insert]

theorem get?_erase_self (c : Cache) (p : Path) : (c.erase p).get? p = none := by
  simp [get?, erase, List.find?_filter]

/-- Forgetting one path leaves the others. -/
theorem get?_erase_of_ne (c : Cache) {p q : Path} (h : q ≠ p) : (c.erase p).get? q = c.get? q := by
  have hkeep : (fun e : Path × Text => decide ((e.1 != p) = true ∧ (e.1 == q) = true)) = fun e => e.1 == q := by
    funext e
    by_cases he : e.1 = q
    · simp [he, h]
    · simp [he]
  simp only [get?, erase, List.find?_filter, hkeep]

/-- Storing a text for one path leaves the others. -/
theorem get?_insert_of_ne (c : Cache) {p q : Path} (t : Text) (h : q ≠ p) : (c.insert p t).get? q = c.get? q := by
  have hne : (p == q) = false := by simpa using Ne.symm h
  rw [← get?_erase_of_ne c h]
  simp only [get?, insert, List.find?_cons, hne]

end Cache

namespace Session

/-- What reading a path gives: the text that is stored for it, else what the disk holds. -/
def reads (s : Session) (p : Path) : Except ReadFault Text :=
  match s.cache.get? p with
  | some t => .ok t
  | none => s.disk.readText p

/-- A session that has read nothing reads the disk. -/
theorem reads_start (d : Disk) (p : Path) : (start d).reads p = d.readText p := rfl

instance : Setoid Session where
  r s t := s.disk = t.disk ∧ s.reads = t.reads
  iseqv := ⟨fun _ => ⟨rfl, rfl⟩, fun h => ⟨h.1.symm, h.2.symm⟩, fun h h' => ⟨h.1.trans h'.1, h.2.trans h'.2⟩⟩

theorem steady_report (e : Event) : Steady (report e) := steady_modify fun _ => ⟨rfl, rfl⟩

theorem steady_reportAll (es : List Event) : Steady (reportAll es) := steady_modify fun _ => ⟨rfl, rfl⟩

/-- Reporting before answering. -/
theorem steady_reported {α : Type} (e : Event) (a : α) : Steady (report e >>= fun _ => pure a) :=
  (steady_report e).bind fun _ => steady_pure a

theorem steady_isFile (p : Path) : Steady (isFile p) := steady_ask fun h => by rw [h.1]

theorem steady_isDir (p : Path) : Steady (isDir p) := steady_ask fun h => by rw [h.1]

/-! ### Reading files -/

/-- Storing what the path reads as anyway does not show. -/
theorem store_equiv {s : Session} {p : Path} {t : Text} (h : s.reads p = .ok t) : after (store p t) s ≈ s := by
  refine ⟨rfl, ?_⟩
  funext q
  show (match (s.cache.insert p t).get? q with
    | some t => Except.ok t
    | none => s.disk.readText q) = s.reads q
  by_cases hq : q = p
  · rw [hq, Cache.get?_insert_self, h]
  · rw [Cache.get?_insert_of_ne _ _ hq]; rfl

theorem answer_cached (p : Path) (s : Session) : answer (cached p) s = .ok (s.cache.get? p) := rfl

theorem after_cached_equiv (p : Path) (s : Session) : after (cached p) s ≈ s := ⟨rfl, rfl⟩

/-- Reading a file answers what the path reads as. -/
theorem answer_fileText (p : Path) (s : Session) : answer (fileText p) s = (s.reads p).mapError .read := by
  rw [fileText, answer_bind, answer_cached]
  cases hc : s.cache.get? p with
  | some t => simp only [reads, hc]; rfl
  | none =>
    have hr : s.reads p = s.disk.readText p := by simp only [reads, hc]
    have hdisk : (after (cached p) s).disk.readText p = s.disk.readText p := rfl
    rw [hr, ok_bind]
    show answer (get >>= _) (after (cached p) s) = _
    rw [answer_get_bind, hdisk]
    cases hd : s.disk.readText p with
    | ok t => rfl
    | error cause => cases hu : cause.isUnreadable <;> simp only [hu] <;> rfl

/-- Work on the text of a file that can be read. -/
theorem reads_bind {α : Type} {p : Path} {s : Session} {t : Text} {f : Text → Except Fault α} (h : s.reads p = .ok t) :
    ((s.reads p).mapError .read >>= f) = f t := by
  rw [h]
  rfl

theorem steady_fileText (p : Path) : Steady (fileText p) where
  answer_eq := by
    intro s t h
    rw [answer_fileText, answer_fileText, h.2]
  after_equiv := by
    intro s
    rw [fileText, after_bind, answer_cached]
    cases hc : s.cache.get? p with
    | some t => exact after_cached_equiv p s
    | none =>
      have hr : (after (cached p) s).reads p = s.disk.readText p := by
        show s.reads p = _
        simp only [reads, hc]
      have hdisk : (after (cached p) s).disk.readText p = s.disk.readText p := rfl
      show after (get >>= _) (after (cached p) s) ≈ s
      rw [after_get_bind, hdisk]
      cases hd : s.disk.readText p with
      | ok t => exact Setoid.trans (store_equiv (hr.trans hd)) (after_cached_equiv p s)
      | error cause => cases hu : cause.isUnreadable <;> simp only [hu] <;> exact ⟨rfl, rfl⟩

/-- Steady work on the text of a file, seen from the session before the file is read. -/
theorem answer_fileText_bind {α : Type} {k : Text → Query α} (p : Path) (hk : ∀ t, Steady (k t)) (s : Session) :
    answer (fileText p >>= k) s = (s.reads p).mapError .read >>= fun t => answer (k t) s := by
  rw [(steady_fileText p).answer_bind hk, answer_fileText]

theorem answer_report_bind {α : Type} {x : Query α} (e : Event) (hx : Steady x) (s : Session) :
    answer (report e >>= fun _ => x) s = answer x s := (steady_report e).answer_bind_ok rfl hx

theorem gives_of_report_bind {α : Type} {x : Query α} {e : Event} {s : Session} {a : α}
    (h : Gives (report e >>= fun _ => x) s a) : Gives x s a := ((steady_report e).gives_bind h).elim fun _ h => h.2

theorem eq_of_gives_reported {α : Type} {e : Event} {s : Session} {a b : α}
    (h : Gives (report e >>= fun _ => pure a) s b) : a = b := eq_of_gives_pure (gives_of_report_bind h)

/-! ### Declarations and definitions -/

theorem answer_imports (content : Text) (s : Session) : answer (imports content) s = .ok (Import.scan content) := rfl

theorem steady_imports (content : Text) : Steady (imports content) := (steady_reportAll _).bind fun _ => steady_pure _

theorem answer_reexports (content : Text) (s : Session) :
    answer (reexports content) s = .ok (Reexport.scan content) := rfl

theorem steady_reexports (content : Text) : Steady (reexports content) :=
  (steady_reportAll _).bind fun _ => steady_pure _

theorem answer_members (kind : MemberKind) (content : Text) (file : Path) (s : Session) :
    answer (members kind content file) s = .ok (Member.scan kind content file) := by
  cases kind <;> rfl

theorem steady_members (kind : MemberKind) (content : Text) (file : Path) : Steady (members kind content file) := by
  cases kind with
  | mixin => exact ((steady_reportAll _).bind fun _ => steady_pure _).bind fun _ => steady_pure _
  | var => exact steady_pure _

theorem answer_findMixin (content name : Text) (file : Path) (s : Session) :
    answer (findMixin content name file) s = .ok (Mixin.find? content name file) := by
  unfold findMixin Mixin.find?
  cases Mixin.findHead? content name <;> rfl

theorem steady_findMixin (content name : Text) (file : Path) : Steady (findMixin content name file) := by
  unfold findMixin
  cases Mixin.findHead? content name with
  | none => exact steady_reported _ _
  | some head => exact (steady_reportAll _).bind fun _ => steady_reported _ _

theorem answer_findVariable (content name : Text) (file : Path) (s : Session) :
    answer (findVariable content name file) s = .ok (Variable.find? content name file) := by
  unfold findVariable
  cases Variable.find? content name file <;> rfl

theorem steady_findVariable (content name : Text) (file : Path) : Steady (findVariable content name file) := by
  unfold findVariable
  cases Variable.find? content name file with
  | none => exact steady_reported _ _
  | some found => exact steady_reported _ _

end Session

/-! ## Resolving is steady -/

open Session

/-- Reading a manifest: a fault of reading is caught, any other goes on. -/
theorem Manifest.steady_read (p : Path) : Steady (Manifest.read p) := by
  refine Steady.bind (Steady.tryCatch ((steady_fileText p).map some) fun e => ?_) fun content => ?_
  · cases e with
    | read cause => exact Steady.ite (steady_pure _) (steady_throw _)
    | _ => exact steady_throw _
  · cases content.elim (.error .malformed) Json.read with
    | ok j =>
      cases j with
      | object fields => exact steady_pure _
      | _ => exact steady_reported _ _
    | error defect =>
      cases defect with
      | malformed => exact steady_reported _ _
      | tooManyDigits count => exact steady_throw _

namespace Resolution

theorem steady_firstFile : ∀ ps : List Path, Steady (firstFile ps)
  | [] => steady_pure none
  | p :: ps => (steady_isFile p).bind fun _ =>
      Steady.ite (steady_reported _ _) (steady_firstFile ps)

theorem steady_resolveRelative (file : Path) (modulePath : Text) : Steady (resolveRelative file modulePath) :=
  (steady_firstFile _).bind fun _ => by
    split
    · exact steady_reported _ _
    · exact steady_pure _

theorem steady_manifestEntry (package : Path) : Steady (manifestEntry package) := by
  refine (steady_isFile _).bind fun _ => Steady.ite ((Manifest.steady_read _).bind fun found => ?_) (steady_pure _)
  cases (found.bind Manifest.entry?).bind Json.text? with
  | none => exact steady_pure none
  | some entry =>
    exact (steady_isFile _).bind fun _ => Steady.ite (steady_reported _ _) (steady_pure _)

theorem steady_resolveIn (packages : Path) (modulePath : Text) : Steady (resolveIn packages modulePath) :=
  (steady_manifestEntry _).bind (Steady.option (fun _ => steady_pure _) (steady_firstFile _))

theorem steady_resolveUpward (modulePath : Text) : ∀ dirs : List Path, Steady (resolveUpward modulePath dirs)
  | [] => steady_pure none
  | _ :: dirs => (steady_isDir _).bind fun _ => Steady.ite
      ((steady_resolveIn _ _).bind (Steady.option (fun _ => steady_pure _) (steady_resolveUpward modulePath dirs)))
      (steady_resolveUpward modulePath dirs)

theorem steady_resolveIncluded (modulePath : Text) : ∀ dirs : List Path, Steady (resolveIncluded modulePath dirs)
  | [] => steady_reported _ _
  | _ :: dirs => (steady_firstFile _).bind
      (Steady.option (fun _ => steady_reported _ _) (steady_resolveIncluded modulePath dirs))

end Resolution

open Resolution in
/-- Resolving a module path is steady. -/
theorem Workspace.steady_resolve (w : Workspace) (file : Path) (modulePath : Text) :
    Steady (w.resolve file modulePath) :=
  (steady_report _).bind fun _ => Steady.ite (steady_reported _ _)
    (Steady.ite (steady_resolveRelative file modulePath) ((steady_resolveUpward _ _).bind
      (Steady.option (fun _ => steady_pure _) (steady_resolveIncluded modulePath w.includePaths))))

end SassModules
