import SassModules.Completion
import SassModules.Proofs.Building
import SassModules.Proofs.Location

/-!
# What was read before makes no difference

A cache is coherent with a disk when every text in it is what the disk holds. A session with a coherent cache looks like
one that has read nothing, so steady work gives the same answer in both, and since it leaves the look of the session, the
cache is coherent afterwards (`Steady.cacheBlind`). That every operation is steady is shown along the operations: what
completes, what finds and what draws a graph is built of work that is (`cache_makes_no_difference`).
-/

namespace SassModules

open Session

/-! ## Coherent caches -/

/-- Every text in the cache is what the disk holds under its path. -/
def Cache.Coherent (c : Cache) (d : Disk) : Prop := ∀ p t, c.get? p = some t → d.readText p = .ok t

/-- The session without what was read before. -/
def Session.unread (s : Session) : Session := { s with cache := .empty }

/-- The work answers as if nothing had been read before, and the cache that it leaves is coherent with the disk. -/
structure CacheBlind {α : Type} (x : Query α) (s : Session) : Prop where
  answer_eq : answer x s = answer x s.unread
  coherent : (after x s).disk = s.disk ∧ (after x s).cache.Coherent s.disk

section Coherent

variable {s : Session}

/-- A coherent cache is one that does not show. -/
theorem Cache.coherent_iff : s.cache.Coherent s.disk ↔ s.reads = s.disk.readText := by
  constructor
  · intro h
    funext p
    unfold Session.reads
    cases hp : s.cache.get? p with
    | none => rfl
    | some t => exact (h p t hp).symm
  · intro h p t hp
    rw [← h]
    unfold Session.reads
    rw [hp]

theorem Session.unread_equiv (h : s.cache.Coherent s.disk) : s ≈ s.unread := ⟨rfl, Cache.coherent_iff.1 h⟩

/-- Steady work does not see a coherent cache. -/
theorem Steady.cacheBlind {α : Type} {x : Query α} (hx : Steady x) (h : s.cache.Coherent s.disk) : CacheBlind x s where
  answer_eq := hx.answer_eq (Session.unread_equiv h)
  coherent := by
    obtain ⟨hdisk, hreads⟩ := hx.after_equiv s
    have hafter : (after x s).cache.Coherent (after x s).disk := by
      rw [Cache.coherent_iff, hreads, hdisk]
      exact Cache.coherent_iff.1 h
    exact ⟨hdisk, hdisk ▸ hafter⟩

end Coherent

/-! ## Finding definitions -/

theorem Workspace.steady_visibleMembers (w : Workspace) (file : Path) (kind : MemberKind) :
    Steady (w.visibleMembers file kind) :=
  (steady_fileText file).bind fun content => (steady_members kind content file).bind fun _ =>
    (Forwarding.steady_fresh (Forwarding.steady_list content)).bind fun _ => steady_pure _

namespace Definition

theorem steady_ofReference (w : Workspace) (d : Document) (r : Reference) : Steady (ofReference w d r) := by
  refine (w.steady_resolveAlias d.text r.aliasName d.file).bind (Steady.option (fun module => ?_) (steady_pure _))
  cases r.target with
  | namespacePart => exact steady_reported _ _
  | memberPart =>
    exact (w.steady_resolveMember module r.member).bind
      (Steady.option (fun m => steady_reported _ _) (steady_reported _ _))

theorem steady_ofArgument (w : Workspace) (d : Document) (a : Argument) : Steady (ofArgument w d a) := by
  refine (w.steady_resolveAlias d.text a.aliasName d.file).bind (Steady.option (fun module => ?_) (steady_pure _))
  refine (w.steady_resolveMember module a.mixin).bind fun found => ?_
  rcases found with _ | m | v
  · exact steady_reported _ _
  · refine Steady.ite (steady_reported _ _) ?_
    cases m.parameter? a.name with
    | none => exact steady_reported _ _
    | some p => exact steady_reported _ _
  · exact steady_reported _ _

theorem steady_search (includePaths : List Path) (d : Document) (p : Position) : Steady (search includePaths d p) := by
  refine (steady_report _).bind fun _ => ?_
  cases d.root with
  | none => exact steady_reported _ _
  | some root =>
    dsimp only
    cases Argument.at? (d.lineAt p.line) p.character with
    | some a => exact (steady_report _).bind fun _ => steady_ofArgument _ d a
    | none =>
      cases Reference.at? (d.lineAt p.line) p.character with
      | none => exact steady_reported _ _
      | some r => exact (steady_report _).bind fun _ => steady_ofReference _ d r

theorem steady_find (includePaths : List Path) (d : Document) (p : Position) : Steady (find includePaths d p) :=
  (steady_search includePaths d p).tryCatch fun _ => steady_reported _ _

end Definition

/-! ## Completing -/

namespace Completion

theorem steady_members (w : Workspace) (d : Document) (p : Position) (aliasName : Text) (filter : MemberFilter)
    (typed : Nat) : Steady (members w d p aliasName filter typed) := by
  refine (w.steady_resolveAlias d.text aliasName d.file).bind (Steady.option (fun module => ?_) (steady_pure _))
  have offered (found : List Member) := steady_reported (.completionOffered
    (found.map (memberCandidate (typedSpan p typed))).length aliasName) (found.map (memberCandidate (typedSpan p typed)))
  -- either kind that is not asked for stands for no members, and the rest goes on with both
  have hmixins (bindings : List Member) := Steady.ite (c := filter.admitsMixins = true)
    ((w.steady_visibleMembers module .mixin).bind fun mixins => offered (bindings ++ mixins))
    ((steady_pure []).bind fun mixins => offered (bindings ++ mixins))
  exact Steady.ite ((w.steady_visibleMembers module .var).bind hmixins) ((steady_pure []).bind hmixins)

theorem steady_calledMixin (w : Workspace) (d : Document) (aliasName : Option Text) (mixin : Text) :
    Steady (calledMixin w d aliasName mixin) := by
  cases aliasName with
  | none => exact steady_findMixin d.text mixin d.file
  | some a =>
    refine (w.steady_resolveAlias d.text a d.file).bind (Steady.option (fun module => ?_) (steady_pure _))
    refine (w.steady_resolveMember module mixin).bind fun found => ?_
    rcases found with _ | m | v <;> exact steady_pure _

theorem steady_arguments (w : Workspace) (d : Document) (p : Position) (aliasName : Option Text) (mixin : Text) :
    Steady (arguments w d p aliasName mixin) :=
  (steady_calledMixin w d aliasName mixin).bind (Steady.option (fun _ => steady_pure _) (steady_pure _))

theorem steady_importedVariables (w : Workspace) (d : Document) (span : Span) : ∀ is : List Import,
    Steady (importedVariables w d span is)
  | [] => steady_pure _
  | i :: is => by
    have ih := steady_importedVariables w d span is
    refine Steady.ite ih ((w.steady_resolve d.file i.path).bind (Steady.option (fun module => ?_) ih))
    exact (w.steady_visibleMembers module .var).bind fun _ => ih.bind fun _ => steady_pure _

theorem steady_scope (w : Workspace) (d : Document) (p : Position) (typed : Nat) : Steady (scope w d p typed) :=
  (steady_imports d.text).bind fun is => (steady_importedVariables w d _ is).bind fun _ => steady_pure _

theorem steady_search (includePaths : List Path) (d : Document) (p : Position) : Steady (search includePaths d p) := by
  refine (steady_report _).bind fun _ => ?_
  dsimp only
  cases Context.of? (d.textBefore p) with
  | none => exact steady_reported _ _
  | some context =>
    cases d.root with
    | none => exact steady_pure _
    | some root =>
      refine (steady_report _).bind fun _ => ?_
      cases context with
      | mixinArgument aliasName mixin => exact steady_arguments _ d p aliasName mixin
      | memberAccess aliasName filter typed => exact steady_members _ d p aliasName filter typed
      | scopeVariable typed => exact steady_scope _ d p typed

theorem steady_candidates (includePaths : List Path) (d : Document) (p : Position) :
    Steady (candidates includePaths d p) :=
  (steady_search includePaths d p).tryCatch fun _ => steady_reported _ _

end Completion

/-! ## No operation sees the cache -/

/-- **The cache makes no difference.** With a coherent cache every operation answers, value or fault, what it answers
when nothing was read before, and however it ends the cache stays coherent. -/
theorem cache_makes_no_difference {s : Session} (h : s.cache.Coherent s.disk) (w : Workspace) (file root : Path)
    (entry : Option Path) (options : Discovery.Options) (V : OpenFiles) (kind : MemberKind)
    (modulePath content member : Text) (d : Document) (p : Position) :
    CacheBlind (w.resolve file modulePath) s ∧
    CacheBlind (Forwarding.within V (Forwarding.find w content member file)) s ∧
    CacheBlind (Forwarding.within V (Forwarding.list w kind content file)) s ∧
    CacheBlind (w.resolveMember file member) s ∧
    CacheBlind (w.visibleMembers file kind) s ∧
    CacheBlind (Definition.find w.includePaths d p) s ∧
    CacheBlind (Completion.candidates w.includePaths d p) s ∧
    CacheBlind (ModuleGraph.build root entry options w.includePaths) s :=
  ⟨(w.steady_resolve file modulePath).cacheBlind h,
    (Forwarding.steady_within (Forwarding.steady_find content) V).cacheBlind h,
    (Forwarding.steady_within (Forwarding.steady_list content) V).cacheBlind h,
    (w.steady_resolveMember file member).cacheBlind h,
    (w.steady_visibleMembers file kind).cacheBlind h,
    (Definition.steady_find w.includePaths d p).cacheBlind h,
    (Completion.steady_candidates w.includePaths d p).cacheBlind h,
    ModuleGraph.steady_build.cacheBlind h⟩

/-- A session that has read one file of the ring. -/
def Ring.warm : Session := { Session.start Ring.diskBox with cache := Cache.empty.insert Ring.fileA Ring.textA }

/-- Behind an alias and around the ring, with one of its files in the cache. -/
theorem cache_makes_no_difference_ring :
    Ring.warm.cache.Coherent Ring.warm.disk ∧
    answer (Definition.find [] Ring.card ⟨2, 34⟩) Ring.warm = .ok (some ⟨Ring.fileA, 1, 0⟩) ∧
    answer (Definition.find [] Ring.card ⟨2, 34⟩) Ring.warm.unread = .ok (some ⟨Ring.fileA, 1, 0⟩) ∧
    (after (Definition.find [] Ring.card ⟨2, 34⟩) Ring.warm).cache.Coherent Ring.warm.disk ∧
    (after (Definition.find [] Ring.card ⟨2, 34⟩) Ring.warm).cache.get? Ring.fileB = some Ring.textB := by
  have hcoherent : Ring.warm.cache.Coherent Ring.warm.disk := by
    intro p t hp
    by_cases h : p = Ring.fileA
    · subst h
      obtain rfl := Option.some.inj ((Cache.get?_insert_self _ _ _).symm.trans hp)
      decide +kernel
    · cases (Cache.get?_insert_of_ne Cache.empty Ring.textA h).symm.trans hp
  have hfind := (cache_makes_no_difference hcoherent Ring.workspace Ring.fileA Ring.fileA none ⟨[], [], none⟩ [] .var
    [] [] [] Ring.card ⟨2, 34⟩).2.2.2.2.2.1
  have hunread : answer (Definition.find [] Ring.card ⟨2, 34⟩) Ring.warm.unread = .ok (some ⟨Ring.fileA, 1, 0⟩) := by
    decide +kernel
  exact ⟨hcoherent, hfind.answer_eq.trans hunread, hunread, hfind.coherent.2, by decide +kernel⟩

end SassModules
