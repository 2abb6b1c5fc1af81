import SassModules.Proofs.Chain

/-!
# Reading through a session

A session lasts: the disk changes under it, files are read, texts are set, paths are reported as changed or gone. What a
read answers at the end of such a history is told by the history alone. One step either forgets the entry of a path, or
stores a text under it, or leaves it (`get?_next_of_forgets`, `get?_next_of_stores`, `get?_next_of_neither`); so an entry
holds what was stored last (`get?_stateAt_iff`). An entry that differs from the disk is one whose change on the disk no
step has announced (`faithful_or_unannounced`).
-/

namespace SassModules

/-! ## What one operation does to the cache -/

namespace Session

variable {s : Session} {p q : Path}

theorem reads_of_hit {t : Text} (h : s.cache.get? p = some t) : s.reads p = .ok t := by simp only [reads, h]

theorem reads_of_miss (h : s.cache.get? p = none) : s.reads p = s.disk.readText p := by simp only [reads, h]

/-- A read that misses stores what it finds on the disk. -/
theorem cache_fileText_of_stored {t : Text} (hmiss : s.cache.get? p = none) (hread : s.disk.readText p = .ok t) :
    (after (fileText p) s).cache = s.cache.insert p t := by
  rw [fileText, after_bind, answer_cached, hmiss]
  show (after (get >>= _) (after (cached p) s)).cache = _
  have hdisk : (after (cached p) s).disk.readText p = .ok t := hread
  rw [after_get_bind, hdisk]
  rfl

/-- Any other read leaves the cache. -/
theorem cache_fileText_of_not_stored (h : s.cache.get? p = none → ∀ t, s.disk.readText p ≠ .ok t) :
    (after (fileText p) s).cache = s.cache := by
  rw [fileText, after_bind, answer_cached]
  cases hc : s.cache.get? p with
  | some t => rfl
  | none =>
    show (after (get >>= _) (after (cached p) s)).cache = _
    have hdisk : (after (cached p) s).disk.readText p = s.disk.readText p := rfl
    rw [after_get_bind, hdisk]
    cases hd : s.disk.readText p with
    | ok t => exact absurd hd (h hc t)
    | error cause => cases hu : cause.isUnreadable <;> simp only [hu] <;> rfl

theorem disk_invalidate : (after (invalidate p) s).disk = s.disk := by
  unfold invalidate
  rw [after_get_bind]
  cases s.cache.contains p <;> rfl

theorem get?_invalidate_self : (after (invalidate p) s).cache.get? p = none := by
  unfold invalidate
  rw [after_get_bind]
  cases hp : s.cache.contains p with
  | true => exact Cache.get?_erase_self s.cache p
  | false => exact Option.not_isSome_iff_eq_none.1 (Bool.eq_false_iff.1 hp)

theorem get?_invalidate_of_ne (h : q ≠ p) : (after (invalidate p) s).cache.get? q = s.cache.get? q := by
  unfold invalidate
  rw [after_get_bind]
  cases s.cache.contains p with
  | true => exact Cache.get?_erase_of_ne s.cache h
  | false => rfl

theorem after_invalidateAll_cons (ps : List Path) :
    after (invalidateAll (p :: ps)) s = after (invalidateAll ps) (after (invalidate p) s) := by
  rw [invalidateAll, after_bind]
  have hanswer : answer (invalidate p) s = .ok (s.cache.contains p) := by
    unfold invalidate
    rw [answer_get_bind]
    cases s.cache.contains p <;> rfl
  rw [hanswer]

theorem disk_invalidateAll (ps : List Path) : (after (invalidateAll ps) s).disk = s.disk := by
  induction ps generalizing s with
  | nil => rfl
  | cons p ps ih => rw [after_invalidateAll_cons, ih, disk_invalidate]

theorem get?_invalidateAll_of_notMem {ps : List Path} (h : q ∉ ps) :
    (after (invalidateAll ps) s).cache.get? q = s.cache.get? q := by
  induction ps generalizing s with
  | nil => rfl
  | cons p ps ih =>
    rw [after_invalidateAll_cons, ih (List.not_mem_of_not_mem_cons h),
      get?_invalidate_of_ne (List.ne_of_not_mem_cons h)]

theorem get?_invalidateAll_of_mem {ps : List Path} (h : q ∈ ps) : (after (invalidateAll ps) s).cache.get? q = none := by
  induction ps generalizing s with
  | nil => cases h
  | cons p ps ih =>
    rw [after_invalidateAll_cons]
    by_cases hps : q ∈ ps
    · exact ih hps
    · obtain rfl : q = p := (List.mem_cons.1 h).resolve_right hps
      rw [get?_invalidateAll_of_notMem hps, get?_invalidate_self]

end Session

/-! ## Histories -/

namespace History

open Session

/-- What can happen while a session lasts. -/
inductive Step where
  | diskChanged (d : Disk)
  | read (p : Path)
  | get (p : Path)
  | set (p : Path) (t : Text)
  | invalidated (p : Path)
  | documentChanged (p : Path)
  | filesDeleted (ps : List Path)
  | cleared

namespace Step

/-- The session after a step. -/
def next (s : Session) : Step → Session
  | diskChanged d => { s with disk := d }
  | read p => after (fileText p) s
  | get p => after (cached p) s
  | set p t => after (store p t) s
  | invalidated p => after (invalidate p) s
  | documentChanged p => after (invalidate p) s
  | filesDeleted ps => after (invalidateAll ps) s
  | cleared => after clear s

/-- The disk after a step. -/
def diskAfter (d : Disk) : Step → Disk
  | diskChanged d' => d'
  | _ => d

/-- The paths that a step is about. -/
def paths : Step → List Path
  | diskChanged _ => []
  | read p => [p]
  | get p => [p]
  | set p _ => [p]
  | invalidated p => [p]
  | documentChanged p => [p]
  | filesDeleted ps => ps
  | cleared => []

/-- The step makes the session forget the path. -/
inductive Forgets (p : Path) : Step → Prop
  | invalidated : Forgets p (invalidated p)
  | documentChanged : Forgets p (documentChanged p)
  | filesDeleted {ps : List Path} (h : p ∈ ps) : Forgets p (filesDeleted ps)
  | cleared : Forgets p cleared

/-- The step stores the text under the path: it sets it, or it is a read that misses and finds it on the disk. -/
inductive Stores (s : Session) (p : Path) (t : Text) : Step → Prop
  | set : Stores s p t (set p t)
  | read (hmiss : s.cache.get? p = none) (hread : s.disk.readText p = .ok t) : Stores s p t (read p)

section OneStep

variable {s : Session} {p : Path} {x : Step}

theorem disk_next (s : Session) (x : Step) : (x.next s).disk = x.diskAfter s.disk := by
  cases x with
  | diskChanged d => rfl
  | read p => exact ((steady_fileText p).after_equiv s).1
  | get p => rfl
  | set p t => rfl
  | invalidated p => exact disk_invalidate
  | documentChanged p => exact disk_invalidate
  | filesDeleted ps => exact disk_invalidateAll ps
  | cleared => rfl

theorem get?_next_of_forgets (h : Forgets p x) : (x.next s).cache.get? p = none := by
  cases h with
  | invalidated => exact get?_invalidate_self
  | documentChanged => exact get?_invalidate_self
  | filesDeleted hp => exact get?_invalidateAll_of_mem hp
  | cleared => rfl

theorem get?_next_of_stores {t : Text} (h : Stores s p t x) : (x.next s).cache.get? p = some t := by
  cases h with
  | set => exact Cache.get?_insert_self s.cache p t
  | read hmiss hread =>
    show (after (fileText p) s).cache.get? p = some t
    rw [cache_fileText_of_stored hmiss hread, Cache.get?_insert_self]

/-- A step leaves the entries that it neither stores nor forgets. -/
theorem get?_next_of_neither (hforget : ¬ Forgets p x) (hstore : ∀ t, ¬ Stores s p t x) :
    (x.next s).cache.get? p = s.cache.get? p := by
  cases x with
  | diskChanged d => rfl
  | get q => rfl
  | cleared => exact absurd .cleared hforget
  | filesDeleted ps => exact get?_invalidateAll_of_notMem fun hp => hforget (.filesDeleted hp)
  | invalidated q => exact get?_invalidate_of_ne fun h => hforget (h ▸ .invalidated)
  | documentChanged q => exact get?_invalidate_of_ne fun h => hforget (h ▸ .documentChanged)
  | set q t => exact Cache.get?_insert_of_ne _ t fun h => hstore t (h ▸ .set)
  | read q =>
    show (after (fileText q) s).cache.get? p = _
    by_cases hq : s.cache.get? q = none ∧ ∃ t, s.disk.readText q = .ok t
    · obtain ⟨hmiss, t, hread⟩ := hq
      have hne : p ≠ q := by
        rintro rfl
        exact hstore t (.read hmiss hread)
      rw [cache_fileText_of_stored hmiss hread, Cache.get?_insert_of_ne _ t hne]
    · rw [cache_fileText_of_not_stored fun hmiss t hread => hq ⟨hmiss, t, hread⟩]

/-- A step about some paths leaves the entries of all others. -/
theorem get?_next_of_notMem_paths (hclear : x ≠ cleared) (hp : p ∉ x.paths) :
    (x.next s).cache.get? p = s.cache.get? p := by
  apply get?_next_of_neither
  · rintro (_ | _ | hmem | _)
    · exact hp (List.mem_singleton_self p)
    · exact hp (List.mem_singleton_self p)
    · exact hp hmem
    · exact hclear rfl
  · rintro t (_ | _) <;> exact hp (List.mem_singleton_self p)

end OneStep

end Step

open Step

/-- The session that began on a disk, after some steps. -/
def stateAt (d : Disk) (steps : List Step) : Session := steps.foldl next (.start d)

/-- The disk that the session began on, or the one that it was last changed to. -/
def diskAt (d : Disk) (steps : List Step) : Disk := steps.foldl diskAfter d

/-- None of the steps stores a text under the path or forgets it. -/
def Spared (p : Path) (s : Session) : List Step → Prop
  | [] => True
  | x :: xs => (¬ Forgets p x ∧ ∀ t, ¬ Stores s p t x) ∧ Spared p (x.next s) xs

/-- The text was stored under the path, and no later step stored another or forgot it. -/
def LastStored (d : Disk) (steps : List Step) (p : Path) (t : Text) : Prop :=
  ∃ before x later, steps = before ++ x :: later ∧ Stores (stateAt d before) p t x ∧
    Spared p (x.next (stateAt d before)) later

section Run

variable {d : Disk} {p : Path}

theorem stateAt_snoc (steps : List Step) (x : Step) : stateAt d (steps ++ [x]) = x.next (stateAt d steps) := by
  simp [stateAt]

theorem diskAt_snoc (steps : List Step) (x : Step) : diskAt d (steps ++ [x]) = x.diskAfter (diskAt d steps) := by
  simp [diskAt]

theorem disk_stateAt (d : Disk) (steps : List Step) : (stateAt d steps).disk = diskAt d steps := by
  induction steps using List.reverseRecOn with
  | nil => rfl
  | append_singleton steps x ih => rw [stateAt_snoc, diskAt_snoc, disk_next, ih]

theorem spared_snoc {x : Step} {xs : List Step} {s : Session} (h : Spared p s xs)
    (hx : ¬ Forgets p x ∧ ∀ t, ¬ Stores (xs.foldl next s) p t x) : Spared p s (xs ++ [x]) := by
  induction xs generalizing s with
  | nil => exact ⟨hx, trivial⟩
  | cons y ys ih => exact ⟨h.1, ih h.2 hx⟩

theorem get?_of_spared {xs : List Step} {s : Session} (h : Spared p s xs) :
    (xs.foldl next s).cache.get? p = s.cache.get? p := by
  induction xs generalizing s with
  | nil => rfl
  | cons x xs ih =>
    rw [List.foldl_cons, ih h.2]
    exact get?_next_of_neither h.1.1 h.1.2

/-- The cache holds under a path what was stored there last. -/
theorem get?_stateAt_iff {steps : List Step} {t : Text} :
    (stateAt d steps).cache.get? p = some t ↔ LastStored d steps p t := by
  constructor
  · intro h
    induction steps using List.reverseRecOn with
    | nil => cases h
    | append_singleton steps x ih =>
      rw [stateAt_snoc] at h
      by_cases hforget : Forgets p x
      · rw [get?_next_of_forgets hforget] at h
        cases h
      by_cases hstore : ∃ t', Stores (stateAt d steps) p t' x
      · obtain ⟨t', hstore⟩ := hstore
        rw [get?_next_of_stores hstore] at h
        obtain rfl := Option.some.inj h
        exact ⟨steps, x, [], rfl, hstore, trivial⟩
      · have hneither : ∀ t', ¬ Stores (stateAt d steps) p t' x := fun t' ht' => hstore ⟨t', ht'⟩
        rw [get?_next_of_neither hforget hneither] at h
        obtain ⟨before, y, later, rfl, hy, hlater⟩ := ih h
        refine ⟨before, y, later ++ [x], by simp, hy, spared_snoc hlater ⟨hforget, ?_⟩⟩
        simpa [stateAt] using hneither
  · rintro ⟨before, x, later, rfl, hx, hlater⟩
    have hsplit : stateAt d (before ++ x :: later) = later.foldl next (x.next (stateAt d before)) := by simp [stateAt]
    rw [hsplit, get?_of_spared hlater, get?_next_of_stores hx]

/-! ### Changes that are announced -/

/-- Since a change of what the disk holds under the path, no step forgot the path. -/
def Unannounced (d : Disk) (steps : List Step) (p : Path) : Prop :=
  ∃ before d' later, steps = before ++ .diskChanged d' :: later ∧
    d'.readText p ≠ (diskAt d before).readText p ∧ ∀ x ∈ later, ¬ Forgets p x

/-- The texts that are set under the path are those that the disk holds. -/
def SetsWhatDiskHolds (d : Disk) (steps : List Step) (p : Path) : Prop :=
  ∀ before t later, steps = before ++ .set p t :: later → (diskAt d before).readText p = .ok t

/-- A change of what the disk holds under the path is followed by a step that forgets the path, before any read of it. -/
def AnnouncesChanges (d : Disk) (steps : List Step) (p : Path) : Prop :=
  ∀ before d' between later, steps = before ++ .diskChanged d' :: (between ++ .read p :: later) →
    d'.readText p ≠ (diskAt d before).readText p → ∃ x ∈ between, Forgets p x

/-- One step: a path that reads as the disk holds it goes on to do so, unless the disk changes. -/
theorem reads_next {s : Session} {x : Step} (h : s.reads p = s.disk.readText p)
    (hset : ∀ t, x = .set p t → s.disk.readText p = .ok t)
    (hchange : ∀ d', x = .diskChanged d' → d'.readText p = s.disk.readText p) :
    (x.next s).reads p = (x.next s).disk.readText p := by
  by_cases hforget : Forgets p x
  · exact reads_of_miss (get?_next_of_forgets hforget)
  have hdisk : (x.next s).disk.readText p = s.disk.readText p := by
    rw [disk_next]
    cases x with
    | diskChanged d' => exact hchange d' rfl
    | _ => rfl
  rw [hdisk]
  by_cases hstore : ∃ t, Stores s p t x
  · obtain ⟨t, hstore⟩ := hstore
    rw [reads_of_hit (get?_next_of_stores hstore)]
    cases hstore with
    | set => exact (hset t rfl).symm
    | read _ hread => exact hread.symm
  · have hkeep := get?_next_of_neither hforget fun t ht => hstore ⟨t, ht⟩
    cases hget : s.cache.get? p with
    | none => rw [reads_of_miss (hkeep.trans hget), hdisk]
    | some t => rw [reads_of_hit (hkeep.trans hget), ← h, reads_of_hit hget]

/-- The whole history: a path reads as the disk holds it, or a change of it was not announced. -/
theorem faithful_or_unannounced {steps : List Step} (hset : SetsWhatDiskHolds d steps p) :
    (stateAt d steps).reads p = (diskAt d steps).readText p ∨ Unannounced d steps p := by
  induction steps using List.reverseRecOn with
  | nil => exact Or.inl (reads_start d p)
  | append_singleton steps x ih =>
    have hsteps : SetsWhatDiskHolds d steps p := fun before t later h =>
      hset before t (later ++ [x]) (by rw [h]; simp)
    rcases ih hsteps with hfaithful | ⟨before, d', later, rfl, hdiffer, hlater⟩
    · by_cases hchange : ∃ d', x = .diskChanged d' ∧ d'.readText p ≠ (diskAt d steps).readText p
      · obtain ⟨d', rfl, hdiffer⟩ := hchange
        exact Or.inr ⟨steps, d', [], rfl, hdiffer, nofun⟩
      · left
        rw [← disk_stateAt] at hfaithful ⊢
        rw [stateAt_snoc]
        refine reads_next hfaithful ?_ ?_
        · rintro t rfl
          rw [disk_stateAt]
          exact hset steps t [] rfl
        · rintro d' rfl
          rw [disk_stateAt]
          exact not_not.1 fun hdiffer => hchange ⟨d', rfl, hdiffer⟩
    · -- an old change that is not announced yet is announced by this step, or stays so
      by_cases hforget : Forgets p x
      · left
        rw [← disk_stateAt, stateAt_snoc]
        exact reads_of_miss (get?_next_of_forgets hforget)
      · refine Or.inr ⟨before, d', later ++ [x], by simp, hdiffer, ?_⟩
        intro y hy
        rcases List.mem_append.1 hy with hy | hy
        · exact hlater y hy
        · exact List.mem_singleton.1 hy ▸ hforget

end Run

/-- **What a read answers, told by the history.** A read answers the text that was stored last under its path, or else
what the disk holds at that moment. A read that fails leaves the cache, and a step leaves the entries of the paths that it
is not about. Where texts are set from the disk and changes are announced, every read answers what the disk holds. -/
theorem read_answers_last_stored (d : Disk) (steps : List Step) (p : Path) :
    (∀ t, LastStored d steps p t → answer (fileText p) (stateAt d steps) = .ok t) ∧
    ((∀ t, ¬ LastStored d steps p t) →
      answer (fileText p) (stateAt d steps) = ((diskAt d steps).readText p).mapError .read) ∧
    (∀ fault, answer (fileText p) (stateAt d steps) = .error fault →
      (stateAt d (steps ++ [.read p])).cache = (stateAt d steps).cache) ∧
    (∀ x, x ≠ Step.cleared → p ∉ x.paths →
      (stateAt d (steps ++ [x])).cache.get? p = (stateAt d steps).cache.get? p) ∧
    (SetsWhatDiskHolds d steps p → AnnouncesChanges d steps p → ∀ before later, steps = before ++ .read p :: later →
      answer (fileText p) (stateAt d before) = ((diskAt d before).readText p).mapError .read) := by
  refine ⟨?_, ?_, ?_, ?_, ?_⟩
  · intro t ht
    rw [answer_fileText, reads_of_hit (get?_stateAt_iff.2 ht)]
    rfl
  · intro hnone
    have hmiss : (stateAt d steps).cache.get? p = none :=
      Option.eq_none_iff_forall_ne_some.2 fun t ht => hnone t (get?_stateAt_iff.1 ht)
    rw [answer_fileText, reads_of_miss hmiss, disk_stateAt]
  · intro fault hfault
    rw [stateAt_snoc]
    refine cache_fileText_of_not_stored fun hmiss t hread => ?_
    rw [answer_fileText, reads_of_miss hmiss, hread] at hfault
    cases hfault
  · intro x hclear hp
    rw [stateAt_snoc]
    exact get?_next_of_notMem_paths hclear hp
  · rintro hset hannounce before later rfl
    have hbefore : SetsWhatDiskHolds d before p := fun b t l h => hset b t (l ++ .read p :: later) (by rw [h]; simp)
    rw [answer_fileText]
    rcases faithful_or_unannounced hbefore with hfaithful | ⟨b, d', between, rfl, hdiffer, hnone⟩
    · rw [hfaithful]
    · obtain ⟨x, hx, hforget⟩ := hannounce b d' between later (by simp) hdiffer
      exact absurd hforget (hnone x hx)

namespace Edited

/-- The disk of the ring with another text in one of its files. -/
def disk : Disk := Ring.disk.insert Ring.fileA.names (.file (Utf8.encode Ring.textB))

/-- A file is read, changed, reported as changed, and read again. -/
def steps : List Step :=
  [.read Ring.fileA, .diskChanged disk, .documentChanged Ring.fileA, .read Ring.fileA]

theorem setsWhatDiskHolds : SetsWhatDiskHolds Ring.disk steps Ring.fileA := by
  intro before t later h
  have hmem : Step.set Ring.fileA t ∈ steps := by rw [h]; simp
  simp [steps] at hmem

theorem announcesChanges : AnnouncesChanges Ring.disk steps Ring.fileA := by
  intro before d' between later h _
  rcases before with _ | ⟨_, _ | ⟨_, _ | ⟨_, _ | ⟨_, before⟩⟩⟩⟩ <;> simp [steps] at h
  rcases between with _ | ⟨x, between⟩
  · simp at h
  · obtain ⟨-, -, hbetween⟩ := h
    have hx := (List.cons.inj hbetween).1
    exact ⟨x, List.mem_cons_self, hx ▸ .documentChanged⟩

end Edited

open Edited in
/-- The change shows when it was reported, and not before. -/
theorem read_answers_last_stored_edited :
    LastStored Ring.disk (steps.take 2) Ring.fileA Ring.textA ∧
    answer (fileText Ring.fileA) (stateAt Ring.disk (steps.take 2)) = .ok Ring.textA ∧
    (∀ t, ¬ LastStored Ring.disk (steps.take 3) Ring.fileA t) ∧
    answer (fileText Ring.fileA) (stateAt Ring.disk (steps.take 3)) = .ok Ring.textB ∧
    (SetsWhatDiskHolds Ring.disk steps Ring.fileA ∧ AnnouncesChanges Ring.disk steps Ring.fileA ∧
      answer (fileText Ring.fileA) (stateAt Ring.disk (steps.take 3)) = (disk.readText Ring.fileA).mapError .read) ∧
    answer (fileText ⟨.root, []⟩) (stateAt Ring.disk steps) = .error (.read (.isDirectory ⟨.root, []⟩)) ∧
    (stateAt Ring.disk (steps ++ [.read ⟨.root, []⟩])).cache = (stateAt Ring.disk steps).cache ∧
    Ring.fileA ∉ (Step.invalidated Ring.fileB).paths ∧
    (stateAt Ring.disk (steps ++ [.invalidated Ring.fileB])).cache.get? Ring.fileA =
      (stateAt Ring.disk steps).cache.get? Ring.fileA := by
  have hstored : LastStored Ring.disk (steps.take 2) Ring.fileA Ring.textA :=
    ⟨[], _, _, rfl, .read rfl (by decide +kernel), ⟨⟨nofun, nofun⟩, trivial⟩⟩
  have hforgotten : ∀ t, ¬ LastStored Ring.disk (steps.take 3) Ring.fileA t := by
    intro t ht
    have hnone : (stateAt Ring.disk (steps.take 3)).cache.get? Ring.fileA = none := by decide +kernel
    cases hnone.symm.trans (get?_stateAt_iff.2 ht)
  have hfault : answer (fileText ⟨.root, []⟩) (stateAt Ring.disk steps) =
      .error (.read (.isDirectory ⟨.root, []⟩)) := by decide +kernel
  obtain ⟨hstale, -, -, -, -⟩ := read_answers_last_stored Ring.disk (steps.take 2) Ring.fileA
  obtain ⟨-, hshown, -, -, -⟩ := read_answers_last_stored Ring.disk (steps.take 3) Ring.fileA
  obtain ⟨-, -, -, hother, hannounced⟩ := read_answers_last_stored Ring.disk steps Ring.fileA
  obtain ⟨-, -, hfailed, -, -⟩ := read_answers_last_stored Ring.disk steps ⟨.root, []⟩
  refine ⟨hstored, hstale _ hstored, hforgotten, (hshown hforgotten).trans (by decide +kernel),
    ⟨setsWhatDiskHolds, announcesChanges, hannounced setsWhatDiskHolds announcesChanges _ [] rfl⟩, hfault,
    hfailed _ hfault, by decide, hother _ nofun (by decide)⟩

end History

end SassModules
