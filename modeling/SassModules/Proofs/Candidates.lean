import SassModules.Proofs.Steady

/-!
# Resolving works through one list

Resolving a module path asks the disk about one candidate after the other, with several loops inside each other: over
the directories, over the spellings of a package in each, over the include paths. `Workspace.tries` writes all of them
down as one list, and resolving gives the first regular file of it (`Workspace.answer_resolve_eq_first`). A manifest is
read only when it is a regular file, and then no read fault gets through; but the number in it that has too many digits is
a try of its own, which ends the work with a fault (`Manifest.answer_read`). No other fault is possible
(`Workspace.resolve_fault`).
-/

namespace SassModules

/-! ## Manifests -/

theorem Disk.faultOf_ne_nullCharacter (d : Disk) (p : Path) (o : Obstacle) : d.faultOf p o ≠ .nullCharacter := by
  cases o <;> simp only [faultOf] <;> try split
  all_goals simp

/-- Only a path with a null character is refused for it. -/
theorem Disk.readText_ne_nullCharacter {d : Disk} {p : Path} (hn : p.hasNull = false) :
    d.readText p ≠ .error .nullCharacter := by
  simp only [readText, readBytes, open?, hn, Bool.false_eq_true, ↓reduceIte]
  cases d.locate p with
  | error o => simpa [bind, Except.bind] using d.faultOf_ne_nullCharacter p o
  | ok r =>
    cases hr : d.node? r with
    | none => simp [hr, bind, Except.bind]
    | some n =>
      cases n with
      | file bytes => cases hb : Utf8.decode bytes <;> simp [hr, hb, bind, Except.bind]
      | _ => simp [hr, bind, Except.bind]

/-- A regular file that cannot be read is at fault itself. -/
theorem Disk.isUnreadable_of_isFile {d : Disk} {p : Path} {cause : ReadFault} (hp : d.isFile p = true)
    (h : d.readText p = .error cause) : cause.isUnreadable = true := by
  have hn : p.hasNull = false := by
    cases hn : p.hasNull with
    | false => rfl
    | true => simp [isFile, find?, hn] at hp
  cases cause with
  | nullCharacter => exact absurd h (readText_ne_nullCharacter hn)
  | _ => rfl

/-- Reading a file for a value made of its text. -/
theorem Session.answer_map_fileText {α : Type} (f : Text → α) (p : Path) (s : Session) :
    answer (f <$> fileText p) s = f <$> (s.reads p).mapError Fault.read := by
  rw [← answer_fileText]
  show answer (fileText p >>= fun t => pure (f t)) s = _
  rw [answer_bind]
  cases answer (fileText p) s <;> rfl

namespace Manifest

/-- The JSON object that a text spells; a number with too many digits is a fault. -/
def objectIn (t : Text) : Except Fault (Option Json) :=
  match Json.read t with
  | .ok (.object fields) => .ok (some (.object fields))
  | .ok _ => .ok none
  | .error .malformed => .ok none
  | .error (.tooManyDigits count) => .error (.longNumber (some count))

/-- The JSON object in the file at a path; a file that cannot be read holds none. -/
def held (s : Session) (p : Path) : Except Fault (Option Json) :=
  match s.reads p with
  | .ok t => objectIn t
  | .error _ => .ok none

theorem isUnreadable_of_reads {s : Session} {p : Path} {cause : ReadFault} (hp : s.disk.isFile p = true)
    (h : s.reads p = .error cause) : cause.isUnreadable = true := by
  unfold Session.reads at h
  cases hc : s.cache.get? p with
  | some t => rw [hc] at h; cases h
  | none => rw [hc] at h; exact Disk.isUnreadable_of_isFile hp h

/-- Reading the manifest in a regular file gives what it holds. -/
theorem answer_read {s : Session} {p : Path} (hp : s.disk.isFile p = true) : answer (read p) s = held s p := by
  rw [read, answer_bind, answer_tryCatch, Session.answer_map_fileText]
  cases hr : s.reads p with
  | error cause =>
    have hu := isUnreadable_of_reads hp hr
    simp only [held, hr]
    show (answer (if cause.isUnreadable = true then _ else _) _ >>= _) = _
    rw [if_pos hu]
    rfl
  | ok t =>
    simp only [held, hr, objectIn]
    show (Except.ok (some t) >>= _) = _
    rw [ok_bind, Option.elim_some]
    rcases hj : Json.read t with (_ | count) | j
    · rfl
    · rfl
    · cases j <;> rfl

/-- Only a number with too many digits is a fault of a manifest. -/
theorem held_fault {s : Session} {p : Path} {e : Fault} (h : held s p = .error e) :
    ∃ count, e = .longNumber (some count) := by
  unfold held objectIn at h
  rcases hr : s.reads p with cause | t
  · simp [hr] at h
  · rw [hr] at h
    rcases hj : Json.read t with (_ | count) | j
    · simp [hj] at h
    · simp only [hj, Except.error.injEq] at h
      exact ⟨count, h.symm⟩
    · cases j <;> simp [hj] at h

end Manifest

/-! ## Tries -/

/-- What is tried in turn: a file that may be there, or a fault that ends the work. -/
inductive Try where
  | file (p : Path)
  | fault (e : Fault)
deriving DecidableEq

namespace Try

/-- The first regular file of some tries, unless a fault stands before it. -/
def first (d : Disk) : List Try → Except Fault (Option Path)
  | [] => .ok none
  | .file p :: ts => if d.isFile p then .ok (some p) else first d ts
  | .fault e :: _ => .error e

variable {d : Disk} {ts : List Try}

theorem first_append (d : Disk) (us : List Try) : ∀ ts : List Try,
    first d (ts ++ us) = first d ts >>= fun found => found.elim (first d us) fun p => .ok (some p)
  | [] => rfl
  | .fault e :: ts => rfl
  | .file p :: ts => by
    rw [List.cons_append, first, first]
    cases d.isFile p with
    | true => rfl
    | false => exact first_append d us ts

theorem first_map_file (d : Disk) : ∀ ps : List Path, first d (ps.map .file) = .ok (ps.find? d.isFile)
  | [] => rfl
  | p :: ps => by
    rw [List.map_cons, first]
    cases hp : d.isFile p with
    | true => rw [List.find?_cons_of_pos hp]; rfl
    | false => rw [List.find?_cons_of_neg (by simp [hp]), ← first_map_file d ps]; rfl

/-- A try that leads to no regular file. -/
def Misses (d : Disk) (t : Try) : Prop := ∃ p, t = .file p ∧ d.isFile p = false

theorem first_of_misses {us : List Try} : ∀ {ts : List Try}, (∀ t ∈ ts, Misses d t) → first d (ts ++ us) = first d us
  | [], _ => rfl
  | t :: ts, h => by
    obtain ⟨p, rfl, hp⟩ := h t List.mem_cons_self
    rw [List.cons_append, first, hp]
    exact first_of_misses fun t ht => h t (List.mem_cons_of_mem _ ht)

/-- Trying ends at the first try that does not miss. -/
theorem first_cases (d : Disk) : ∀ ts : List Try,
    (∀ t ∈ ts, Misses d t) ∨ ∃ before t after, ts = before ++ t :: after ∧ ¬ Misses d t ∧ ∀ u ∈ before, Misses d u
  | [] => Or.inl fun _ h => absurd h List.not_mem_nil
  | t :: ts => by
    by_cases ht : Misses d t
    · rcases first_cases d ts with h | ⟨before, u, after, rfl, hu, hbefore⟩
      · exact Or.inl (List.forall_mem_cons.2 ⟨ht, h⟩)
      · exact Or.inr ⟨t :: before, u, after, rfl, hu, List.forall_mem_cons.2 ⟨ht, hbefore⟩⟩
    · exact Or.inr ⟨[], t, ts, rfl, ht, fun _ h => absurd h List.not_mem_nil⟩

theorem first_of_found {before after : List Try} {p : Path} (hbefore : ∀ t ∈ before, Misses d t)
    (hp : d.isFile p = true) : first d (before ++ .file p :: after) = .ok (some p) := by
  rw [first_of_misses hbefore, first, if_pos hp]

theorem first_of_fault {before after : List Try} {e : Fault} (hbefore : ∀ t ∈ before, Misses d t) :
    first d (before ++ .fault e :: after) = .error e := by
  rw [first_of_misses hbefore, first]

theorem first_of_all_miss {ts : List Try} (h : ∀ t ∈ ts, Misses d t) : first d ts = .ok none := by
  rw [← List.append_nil ts, first_of_misses h, first]

/-- A try that does not miss finds a file or faults. -/
theorem not_misses {t : Try} (h : ¬ Misses d t) : (∃ p, t = .file p ∧ d.isFile p = true) ∨ ∃ e, t = .fault e := by
  cases t with
  | file p =>
    cases hp : d.isFile p with
    | true => exact Or.inl ⟨p, rfl, hp⟩
    | false => exact absurd ⟨p, rfl, hp⟩ h
  | fault e => exact Or.inr ⟨e, rfl⟩

theorem first_eq_none_iff {ts : List Try} : first d ts = .ok none ↔ ∀ t ∈ ts, Misses d t := by
  refine ⟨fun h => ?_, first_of_all_miss⟩
  rcases first_cases d ts with hmiss | ⟨before, t, after, rfl, ht, hbefore⟩
  · exact hmiss
  · rcases not_misses ht with ⟨p, rfl, hp⟩ | ⟨e, rfl⟩
    · rw [first_of_found hbefore hp] at h
      cases h
    · rw [first_of_fault hbefore] at h
      cases h

theorem first_eq_some_iff {ts : List Try} {p : Path} : first d ts = .ok (some p) ↔
    ∃ before after, ts = before ++ .file p :: after ∧ d.isFile p = true ∧ ∀ t ∈ before, Misses d t := by
  constructor
  · intro h
    rcases first_cases d ts with hmiss | ⟨before, t, after, rfl, ht, hbefore⟩
    · rw [first_of_all_miss hmiss] at h
      cases h
    · rcases not_misses ht with ⟨q, rfl, hq⟩ | ⟨e, rfl⟩
      · rw [first_of_found hbefore hq] at h
        obtain rfl := Option.some.inj (Except.ok.inj h)
        exact ⟨before, after, rfl, hq, hbefore⟩
      · rw [first_of_fault hbefore] at h
        cases h
  · rintro ⟨before, after, rfl, hp, hbefore⟩
    exact first_of_found hbefore hp

theorem first_eq_error_iff {ts : List Try} {e : Fault} : first d ts = .error e ↔
    ∃ before after, ts = before ++ .fault e :: after ∧ ∀ t ∈ before, Misses d t := by
  constructor
  · intro h
    rcases first_cases d ts with hmiss | ⟨before, t, after, rfl, ht, hbefore⟩
    · rw [first_of_all_miss hmiss] at h
      cases h
    · rcases not_misses ht with ⟨p, rfl, hp⟩ | ⟨e', rfl⟩
      · rw [first_of_found hbefore hp] at h
        cases h
      · rw [first_of_fault hbefore] at h
        obtain rfl := Except.error.inj h
        exact ⟨before, after, rfl, hbefore⟩
  · rintro ⟨before, after, rfl, hbefore⟩
    exact first_of_fault hbefore

end Try

/-! ## The list of tries -/

namespace Resolution

open Session

variable {s : Session}

/-- The stylesheet that the manifest of a package names, whether it exists or not, or the fault of the manifest. -/
def namedTries (s : Session) (package : Path) : List Try :=
  if s.disk.isFile (package.child Manifest.fileName) then
    match Manifest.held s (package.child Manifest.fileName) with
    | .ok manifest => (((manifest.bind Manifest.entry?).bind Json.text?).map fun t => .file (seenFrom package t)).toList
    | .error e => [.fault e]
  else []

/-- What is tried for a package in a directory of packages. -/
def packageTries (s : Session) (packages : Path) (modulePath : Text) : List Try :=
  namedTries s (seenFrom packages modulePath) ++ (packageCandidates (seenFrom packages modulePath)).map .file

/-- The directories of packages that exist among those of the given directories. -/
def packageDirs (s : Session) (dirs : List Path) : List Path :=
  (dirs.map (·.child packageDir)).filter s.disk.isDir

theorem answer_firstFile : ∀ ps : List Path, answer (firstFile ps) s = .ok (ps.find? s.disk.isFile)
  | [] => rfl
  | p :: ps => by
    have ih := answer_firstFile ps
    rw [firstFile, (steady_isFile p).answer_bind fun _ =>
      Steady.ite (steady_reported _ _) (steady_firstFile ps)]
    show answer (if s.disk.isFile p = true then _ else _) s = _
    cases hp : s.disk.isFile p with
    | true => rw [List.find?_cons_of_pos hp]; rfl
    | false => rw [List.find?_cons_of_neg (by simp [hp])]; exact ih

theorem answer_resolveRelative (file : Path) (modulePath : Text) : answer (resolveRelative file modulePath) s =
    .ok ((relativeCandidates (seenFrom file.parent modulePath)).find? s.disk.isFile) := by
  rw [resolveRelative, answer_bind, answer_firstFile]
  cases (relativeCandidates (seenFrom file.parent modulePath)).find? s.disk.isFile <;> rfl

theorem answer_manifestEntry (package : Path) :
    answer (manifestEntry package) s = Try.first s.disk (namedTries s package) := by
  rw [manifestEntry, answer_bind]
  show answer (if s.disk.isFile (package.child Manifest.fileName) = true then _ else _) s = _
  unfold namedTries
  by_cases hm : s.disk.isFile (package.child Manifest.fileName) = true
  · rw [if_pos hm, if_pos hm, answer_bind, Manifest.answer_read hm]
    rcases Manifest.held s (package.child Manifest.fileName) with e | manifest
    · rfl
    · simp only [ok_bind]
      rcases (manifest.bind Manifest.entry?).bind Json.text? with _ | entry
      · rfl
      · have hd := ((Manifest.steady_read (package.child Manifest.fileName)).after_equiv s).1
        show answer (if (after (Manifest.read _) s).disk.isFile (seenFrom package entry) = true then _ else _) _ =
          if s.disk.isFile (seenFrom package entry) = true then _ else _
        rw [hd]
        cases s.disk.isFile (seenFrom package entry) <;> rfl
  · rw [if_neg hm, if_neg hm]; rfl

theorem answer_resolveIn (packages : Path) (modulePath : Text) :
    answer (resolveIn packages modulePath) s = Try.first s.disk (packageTries s packages modulePath) := by
  rw [resolveIn, (steady_manifestEntry _).answer_bind, answer_manifestEntry, packageTries, Try.first_append]
  · congr 1
    funext found
    cases found with
    | some path => rfl
    | none => exact (answer_firstFile _).trans (Try.first_map_file _ _).symm
  · exact Steady.option (fun _ => steady_pure _) (steady_firstFile _)

theorem answer_resolveUpward (modulePath : Text) : ∀ dirs : List Path, answer (resolveUpward modulePath dirs) s =
    Try.first s.disk ((packageDirs s dirs).flatMap (packageTries s · modulePath))
  | [] => rfl
  | dir :: dirs => by
    have ih := answer_resolveUpward modulePath dirs
    rw [resolveUpward, answer_bind]
    show answer (if s.disk.isDir (dir.child packageDir) = true then _ else _) s = _
    unfold packageDirs at ih ⊢
    cases hd : s.disk.isDir (dir.child packageDir) with
    | false =>
      rw [List.map_cons, List.filter_cons_of_neg (by simp [hd])]
      exact ih
    | true =>
      rw [if_pos rfl, (steady_resolveIn _ _).answer_bind, answer_resolveIn, List.map_cons, List.filter_cons_of_pos hd,
        List.flatMap_cons, Try.first_append]
      · congr 1
        funext found
        cases found with
        | some path => rfl
        | none => exact ih
      · exact Steady.option (fun _ => steady_pure _) (steady_resolveUpward modulePath dirs)

theorem answer_resolveIncluded (modulePath : Text) : ∀ dirs : List Path, answer (resolveIncluded modulePath dirs) s =
    .ok ((dirs.flatMap fun dir => packageCandidates (seenFrom dir modulePath)).find? s.disk.isFile)
  | [] => rfl
  | dir :: dirs => by
    have ih := answer_resolveIncluded modulePath dirs
    rw [resolveIncluded, (steady_firstFile _).answer_bind, answer_firstFile, List.flatMap_cons, List.find?_append]
    · cases (packageCandidates (seenFrom dir modulePath)).find? s.disk.isFile with
      | some path => rfl
      | none => exact ih
    · exact Steady.option (fun _ => steady_reported _ _)
        (steady_resolveIncluded modulePath dirs)

end Resolution

/-! ## Resolving -/

namespace Workspace

open Session Resolution

variable (w : Workspace) (s : Session) (file : Path) (modulePath : Text)

/-- What is tried for a module path in a file, in order. -/
def tries : List Try :=
  if ModulePath.isBuiltin modulePath then []
  else if isRelative modulePath then (relativeCandidates (seenFrom file.parent modulePath)).map .file
  else (packageDirs s (searchDirs w.root file)).flatMap (packageTries s · modulePath) ++
    (w.includePaths.flatMap fun dir => packageCandidates (seenFrom dir modulePath)).map .file

/-- Resolving gives the first regular file that is tried. -/
theorem answer_resolve_eq_first :
    answer (w.resolve file modulePath) s = Try.first s.disk (w.tries s file modulePath) := by
  rw [resolve, answer_report_bind]
  · unfold tries
    cases ModulePath.isBuiltin modulePath with
    | true => rfl
    | false =>
      cases isRelative modulePath with
      | true => exact (answer_resolveRelative file modulePath).trans (Try.first_map_file _ _).symm
      | false =>
        simp only [Bool.false_eq_true, ↓reduceIte]
        rw [(steady_resolveUpward _ _).answer_bind, answer_resolveUpward, Try.first_append]
        · congr 1
          funext found
          cases found with
          | some path => rfl
          | none => exact (answer_resolveIncluded modulePath w.includePaths).trans (Try.first_map_file _ _).symm
        · exact Steady.option (fun _ => steady_pure _) (steady_resolveIncluded modulePath w.includePaths)
  · exact Steady.ite (steady_reported _ _)
      (Steady.ite (steady_resolveRelative file modulePath) ((steady_resolveUpward _ _).bind
        (Steady.option (fun _ => steady_pure _) (steady_resolveIncluded modulePath w.includePaths))))

/-- The file that a module path in a file resolves to. -/
def target? : Option Path :=
  match answer (w.resolve file modulePath) s with
  | .ok found => found
  | .error _ => none

variable {w s file modulePath}

theorem target?_eq_some_iff {target : Path} :
    w.target? s file modulePath = some target ↔ answer (w.resolve file modulePath) s = .ok (some target) := by
  unfold target?
  cases answer (w.resolve file modulePath) s <;> simp

theorem target?_of_ok {found : Option Path} (h : answer (w.resolve file modulePath) s = .ok found) :
    w.target? s file modulePath = found := by
  rw [target?, h]

/-- What a module path resolves to is a regular file that was tried. -/
theorem mem_tries_of_target? {target : Path} (h : w.target? s file modulePath = some target) :
    .file target ∈ w.tries s file modulePath ∧ s.disk.isFile target = true := by
  rw [target?_eq_some_iff, answer_resolve_eq_first] at h
  obtain ⟨before, after, htries, htarget, -⟩ := Try.first_eq_some_iff.1 h
  exact ⟨htries ▸ by simp, htarget⟩

/-- Resolving faults only on a number with too many digits in a manifest. -/
theorem resolve_fault {e : Fault} (h : answer (w.resolve file modulePath) s = .error e) :
    ∃ count, e = .longNumber (some count) := by
  rw [answer_resolve_eq_first] at h
  obtain ⟨before, after, htries, -⟩ := Try.first_eq_error_iff.1 h
  have hmem : Try.fault e ∈ w.tries s file modulePath := htries ▸ by simp
  have hfile : ∀ ps : List Path, Try.fault e ∉ ps.map .file := by simp
  unfold tries at hmem
  split at hmem
  · cases hmem
  · split at hmem
    · exact absurd hmem (hfile _)
    · obtain ⟨packages, -, hmem⟩ := List.mem_flatMap.1 ((List.mem_append.1 hmem).resolve_right (hfile _))
      have hnamed := (List.mem_append.1 hmem).resolve_right (hfile _)
      unfold namedTries at hnamed
      split at hnamed
      · cases hheld : Manifest.held s ((seenFrom packages modulePath).child Manifest.fileName) with
        | error e' =>
          rw [hheld] at hnamed
          cases List.mem_singleton.1 hnamed
          exact Manifest.held_fault hheld
        | ok manifest =>
          rw [hheld, Option.mem_toList, Option.map_eq_some_iff] at hnamed
          obtain ⟨t, -, h⟩ := hnamed
          cases h
      · cases hnamed

end Workspace

end SassModules
