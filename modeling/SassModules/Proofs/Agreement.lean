import SassModules.Proofs.Ending
import SassModules.Proofs.Lookup
import SassModules.Proofs.Search

/-!
# What is listed can be looked up

Forwarding is unambiguous in a text when its prefixes cannot be taken for each other or for the beginning of a name that
the text defines itself (`Unambiguous`). Where every file that can be reached forwards so (`IsClear`), a simple chain is
the greedy walk of every name at its end (`greedy_of_chain`): in each file only one declaration fits. A listed member is
the first of its name, hence the first definition of its own name in the file where its chain ends
(`exists_chain_of_visible`), and that one is what the look-up finds there (`Greedy.answer_resolveMember`). So resolving
the name of a visible member gives that member again. The listing resolves every declaration that the look-up does, so
that the look-up has no fault where the listing had none.
-/

namespace SassModules

open Forwarding Hop

/-! ## Forwarding without ambiguity -/

section Unambiguous

variable (w : Workspace) (s : Session)

/-- The declarations of a text whose modules resolve. -/
def resolvable (text : Text) (file : Path) : List Reexport :=
  (Reexport.scan text).filter fun d => (w.target? s file d.path).isSome

/-- Every declaration that resolves has a prefix, none of these prefixes begins another one or the bare name of a
definition in the same text, and no line opens a block comment. -/
structure Unambiguous (text : Text) (file : Path) : Prop where
  prefixed : ∀ d ∈ resolvable w s text file, d.pre ≠ none
  apart : (resolvable w s text file).Pairwise fun d d' => ∀ p ∈ d.pre, ∀ q ∈ d'.pre, ¬ p <+: q ∧ ¬ q <+: p
  ownApart : ∀ kind, ∀ m ∈ Member.scan kind text file, ∀ d ∈ resolvable w s text file, ∀ p ∈ d.pre,
    ¬ p <+: Name.bare m.name
  noBlock : ∀ line ∈ text.lines, Text.occurs "/*" line = false

/-- Every file that can be reached can be read, and forwards without ambiguity. -/
def IsClear (file : Path) : Prop :=
  ∀ f, Reaches w s file f → ∃ text, s.reads f = .ok text ∧ Unambiguous w s text f

variable {w s} {content text : Text} {file : Path} {h : Hop} {kind : MemberKind}

theorem mem_resolvable {d : Reexport} :
    d ∈ resolvable w s text file ↔ d ∈ Reexport.scan text ∧ (w.target? s file d.path).isSome = true := List.mem_filter

theorem IsHop.mem_resolvable (hh : IsHop w s text file h) : h.decl ∈ resolvable w s text file :=
  SassModules.mem_resolvable.2 ⟨List.mem_of_getElem? hh.scanned, by rw [hh.resolved]; rfl⟩

theorem IsHop.not_mem_pre {p : Text} (hh : IsHop w s text file h) (hp : h.decl.pre = some p) : '$' ∉ p :=
  Name.not_mem_of_isName (Reexport.isName_pre (List.mem_of_getElem? hh.scanned) hp)

theorem IsClear.of_reaches {target : Path} (hfile : IsClear w s file) (htarget : Reaches w s file target) :
    IsClear w s target := fun f hf => hfile f (htarget.trans hf)

theorem IsClear.unambiguous (hfile : IsClear w s file) (hread : s.reads file = .ok text) :
    Unambiguous w s text file := by
  obtain ⟨text', hread', hu⟩ := hfile file .refl
  obtain rfl := Except.ok.inj (hread.symm.trans hread')
  exact hu

/-- Around the ring every prefix is its own. -/
theorem Ring.isClear : IsClear Ring.workspace (.start Ring.disk) Ring.fileA := by
  have hreadA : (Session.start Ring.disk).reads Ring.fileA = .ok Ring.textA := by decide +kernel
  have hreadB : (Session.start Ring.disk).reads Ring.fileB = .ok Ring.textB := by decide +kernel
  have hstepA : ∀ d ∈ Reexport.scan Ring.textA,
      Ring.workspace.target? (.start Ring.disk) Ring.fileA d.path = some Ring.fileB := by decide +kernel
  have hstepB : ∀ d ∈ Reexport.scan Ring.textB,
      Ring.workspace.target? (.start Ring.disk) Ring.fileB d.path = some Ring.fileA := by decide +kernel
  have hreach : ∀ f, Reaches Ring.workspace (.start Ring.disk) Ring.fileA f → f = Ring.fileA ∨ f = Ring.fileB := by
    intro f hf
    induction hf with
    | refl => exact Or.inl rfl
    | tail _ hstep ih =>
      obtain ⟨text, hread, d, hd, ht⟩ := hstep
      rcases ih with rfl | rfl
      · obtain rfl := Except.ok.inj (hreadA.symm.trans hread)
        exact Or.inr (Option.some.inj ((hstepA d hd).symm.trans ht)).symm
      · obtain rfl := Except.ok.inj (hreadB.symm.trans hread)
        exact Or.inl (Option.some.inj ((hstepB d hd).symm.trans ht)).symm
  intro f hf
  rcases hreach f hf with rfl | rfl
  · exact ⟨_, hreadA, by decide +kernel, by decide +kernel, fun kind => by cases kind <;> decide +kernel,
      by decide +kernel⟩
  · exact ⟨_, hreadB, by decide +kernel, by decide +kernel, fun kind => by cases kind <;> decide +kernel,
      by decide +kernel⟩

namespace Unambiguous

/-- Behind its prefix, a name is caught by no other declaration. -/
theorem isFirstFit {p : Text} (hu : Unambiguous w s text file) (hh : IsHop w s text file h) (hp : h.decl.pre = some p)
    (n : Text) : IsFirstFit w s text file (Name.addPrefix (some p) n) h where
  hop := hh
  fits := by
    refine ⟨?_, by rw [hh.resolved]; rfl⟩
    rw [hp, Name.stripPrefix?_addPrefix (hh.not_mem_pre hp)]
    rfl
  first := by
    intro i hi d hd hfits
    obtain ⟨q, hq⟩ := Option.ne_none_iff_exists'.1
      (hu.prefixed d (SassModules.mem_resolvable.2 ⟨List.mem_of_getElem? hd, hfits.resolves⟩))
    have hqn : q <+: p ++ Name.bare n := by
      rw [← Name.bare_addPrefix (hh.not_mem_pre hp), ← Name.isSome_stripPrefix?_some, ← hq]
      exact hfits.strips
    have hapart := List.pairwise_iff_getElem.1 (List.pairwise_filter.1 hu.apart)
    obtain ⟨hlt, hget⟩ := List.getElem?_eq_some_iff.1 hd
    obtain ⟨hlt', hget'⟩ := List.getElem?_eq_some_iff.1 hh.scanned
    have hne := hapart i h.position hlt hlt' hi (by rw [hget]; exact hfits.resolves) (by rw [hget', hh.resolved]; rfl)
      q (by rw [hget, hq]; rfl) p (by rw [hget', hp]; rfl)
    -- both are prefixes of one name, so one of them begins the other
    rcases List.prefix_or_prefix_of_prefix hqn (List.prefix_append p _) with hle | hle
    · exact hne.1 hle
    · exact hne.2 hle

/-- No declaration catches the name of a definition of the text. -/
theorem not_fits {m : Member} (hu : Unambiguous w s text file) (hm : m ∈ Member.scan kind text file) :
    ∀ d ∈ Reexport.scan text, ¬ Fits w s file m.name d := by
  intro d hd hfits
  have hmem : d ∈ resolvable w s text file := SassModules.mem_resolvable.2 ⟨hd, hfits.resolves⟩
  obtain ⟨p, hp⟩ := Option.ne_none_iff_exists'.1 (hu.prefixed d hmem)
  refine hu.ownApart kind m hm d hmem p hp ?_
  rw [← Name.isSome_stripPrefix?_some, ← hp]
  exact hfits.strips

end Unambiguous

/-- A simple chain is the greedy walk of each name that its last file defines. -/
theorem greedy_of_chain {c : List Hop} {m : Member} (hchain : IsChain w s content file c) :
    ∀ {V : OpenFiles}, IsSimple V file c → s.reads file = .ok content → IsClear w s file →
      s.reads (endFile file c) = .ok text → m ∈ Member.scan kind text (endFile file c) →
      Greedy w s V content file (addPrefixes c m.name) c ⟨m.name, endFile file c⟩ := by
  -- along the chain the open files grow, and the last file is reached where no declaration catches its own names
  induction hchain with
  | nil content file =>
    intro V _ hread hclear hend hm
    obtain rfl := Except.ok.inj (hread.symm.trans hend)
    exact .stop (Or.inr ((hclear.unambiguous hread).not_fits hm))
  | @cons content _ file h hs hop hread' _ ih =>
    intro V hsimple hread hclear hend hm
    obtain ⟨hfile, hsimple'⟩ := isSimple_cons_iff.1 hsimple
    have hu := hclear.unambiguous hread
    obtain ⟨p, hp⟩ := Option.ne_none_iff_exists'.1 (hu.prefixed h.decl hop.mem_resolvable)
    have hstep : Forwards w s file h.target :=
      ⟨content, hread, h.decl, List.mem_of_getElem? hop.scanned, hop.resolved⟩
    rw [addPrefixes_cons, hp]
    have hrest := ih hsimple' hread' (hclear.of_reaches (.single hstep)) hend hm
    refine .step hfile (hu.isFirstFit hop hp _) ?_ hread' hrest
    rw [hp]
    exact Name.stripPrefix?_addPrefix (hop.not_mem_pre hp) _

end Unambiguous

/-! ## The first definition of a name -/

section First

variable {kind : MemberKind} {text : Text} {file : Path} {m r : Member} {ms : List Member}

/-- The first member with a property of its name is the first of its own name. -/
theorem find?_name_of_find? {f : Text → Bool} (h : ms.find? (fun m => f m.name) = some m) :
    ms.find? (·.name == m.name) = some m := by
  obtain ⟨hm, before, behind, rfl, hbefore⟩ := List.find?_eq_some_iff_append.1 h
  refine List.find?_eq_some_iff_append.2 ⟨beq_self_eq_true _, before, behind, rfl, fun a ha => ?_⟩
  have hne : a.name ≠ m.name := fun e => by simpa [e, hm] using hbefore a ha
  simpa using hne

/-- A member that is kept is the first of its name. -/
theorem find?_of_mem_publicMembers : ∀ (ms : List Member) (seen : List Text), r ∈ Workspace.publicMembers seen ms →
    ms.find? (·.name == r.name) = some r ∧ Name.isPrivate r.name = false ∧ r.name ∉ seen
  | [], _, h => absurd h List.not_mem_nil
  | m :: ms, seen, h => by
    unfold Workspace.publicMembers at h
    split at h
    · rename_i hskip
      obtain ⟨hfind, hpublic, hseen⟩ := find?_of_mem_publicMembers ms seen h
      have hne : m.name ≠ r.name := fun e => by simp [e, hpublic, hseen] at hskip
      exact ⟨by rw [List.find?_cons_of_neg (by simpa using hne), hfind], hpublic, hseen⟩
    · rename_i hkeep
      simp only [Bool.or_eq_true, not_or, Bool.not_eq_true, List.contains_eq_mem, decide_eq_true_eq] at hkeep
      rcases List.mem_cons.1 h with rfl | h
      · exact ⟨List.find?_cons_of_pos (beq_self_eq_true _), hkeep⟩
      · obtain ⟨hfind, hpublic, hseen⟩ := find?_of_mem_publicMembers ms (m.name :: seen) h
        obtain ⟨hne, hseen⟩ := not_or.1 (mt List.mem_cons.2 hseen)
        exact ⟨by rw [List.find?_cons_of_neg (by simpa using Ne.symm hne), hfind], hpublic, hseen⟩

/-- Without block comments, the look-up in a text gives the first listed definition of the name. -/
theorem answer_definedIn_of_find? (s : Session) (hblock : ∀ line ∈ text.lines, Text.occurs "/*" line = false)
    (h : (Member.scan kind text file).find? (·.name == m.name) = some m) :
    answer (Workspace.definedIn text m.name file) s = .ok (some m) := by
  rw [Workspace.answer_definedIn]
  cases kind with
  | mixin =>
    rw [Member.scan, List.find?_map] at h
    obtain ⟨x, hx, rfl⟩ := Option.map_eq_some_iff.1 h
    have hname : Name.isVariable x.name = false := by
      have := Name.not_mem_of_isName (Mixin.isName_of_mem_scan (List.mem_of_find?_eq_some hx))
      rw [Name.isVariable_eq, Name.sigil_of_not_mem this]
      rfl
    have hfind : Mixin.find? text x.name file = some x := (Mixin.find?_eq text x.name file).trans hx
    show Except.ok (if Name.isVariable x.name = true then _ else (Mixin.find? text x.name file).map Member.mixin) = _
    rw [hname, hfind]
    rfl
  | var =>
    rw [Member.scan, List.find?_map] at h
    obtain ⟨x, hx, rfl⟩ := Option.map_eq_some_iff.1 h
    obtain ⟨n, hn, hname⟩ := Variable.isName_of_mem_scan (List.mem_of_find?_eq_some hx)
    have hfind : Variable.find? text x.name file = some x := by
      rw [hn, Variable.find?_eq file hname hblock, ← hn]
      exact hx
    show Except.ok (if Name.isVariable x.name = true then (Variable.find? text x.name file).map Member.var else _) = _
    rw [hfind, hn]
    rfl

end First

/-! ## Listing and looking up -/

section Agreement

variable {w : Workspace} {s : Session} {kind : MemberKind} {content text : Text} {file : Path} {r : Member}

/-- The first member of a name that a chain makes visible is the first definition of its own name at the end of it. -/
theorem exists_of_find?_exposed {c : List Hop} (h : (exposed s kind file c).find? (·.name == r.name) = some r) :
    ∃ text m, s.reads (endFile file c) = .ok text ∧
      (Member.scan kind text (endFile file c)).find? (·.name == m.name) = some m ∧
      r = m.rename (addPrefixes c m.name) := by
  unfold exposed at h
  cases hread : s.reads (endFile file c) with
  | error e => rw [hread] at h; cases h
  | ok text =>
    simp only [hread, List.find?_map, publicIn, List.find?_filter] at h
    obtain ⟨m, hm, rfl⟩ := Option.map_eq_some_iff.1 h
    simp only [Function.comp_apply, Member.name_rename] at hm
    let isShown (n : Text) : Bool :=
      decide ((!Name.isPrivate n) = true ∧ (addPrefixes c n == addPrefixes c m.name) = true)
    exact ⟨text, m, rfl, find?_name_of_find? (f := isShown) hm, rfl⟩

/-- A visible member comes from the end of a simple chain, the empty one for the module's own members. -/
theorem exists_chain_of_visible {chains : List (List Hop)} (hread : s.reads file = .ok content)
    (hchains : AllChains w s [] content file chains)
    (hr : r ∈ Workspace.publicMembers [] (Member.scan kind content file ++ chains.flatMap (exposed s kind file))) :
    ∃ c, IsChain w s content file c ∧ IsSimple [] file c ∧ ∃ text m, s.reads (endFile file c) = .ok text ∧
      (Member.scan kind text (endFile file c)).find? (·.name == m.name) = some m ∧
      r = m.rename (addPrefixes c m.name) := by
  have hfirst := (find?_of_mem_publicMembers _ [] hr).1
  rw [List.find?_append, Option.or_eq_some_iff] at hfirst
  rcases hfirst with hown | ⟨-, hforwarded⟩
  · refine ⟨[], .nil _ _, isSimple_nil _ _, content, r, hread, hown, ?_⟩
    rw [addPrefixes_nil, Member.rename_name]
  · rw [List.find?_flatMap] at hforwarded
    obtain ⟨c, hc, hfind⟩ := List.exists_of_findSome?_eq_some hforwarded
    obtain ⟨-, hchain, hsimple⟩ := (hchains.mem_iff c).1 hc
    exact ⟨c, hchain, hsimple, exists_of_find?_exposed hfind⟩

/-- Where a module can be listed, resolving a member looks it up at the end of its greedy walk. -/
theorem Greedy.answer_resolveMember {member : Text} {hs : List Hop} {e : Origin} {ms : List Member}
    (h : Greedy w s [] content file member hs e) (hread : s.reads file = .ok content)
    (hlist : answer (list w kind content file) ⟨s, []⟩ = .ok ms) (hend : s.reads e.file = .ok text) :
    answer (w.resolveMember file member) s = answer (Workspace.definedIn text e.name e.file) s := by
  have hfind : answer (find w content member file) ⟨s, []⟩ = .ok (arrival hs e) := by
    rw [answer_list] at hlist
    rw [answer_find]
    exact h.answer_findWithin hlist
  rw [w.answer_resolveMember, Session.reads_bind hread, hfind]
  cases hs with
  | nil =>
    obtain rfl := h.eq_of_nil
    obtain rfl := Except.ok.inj (hread.symm.trans hend)
    rfl
  | cons hop hs =>
    exact Session.reads_bind hend

/-- **What a module shows can be looked up in it.** Where every file that can be reached from a module forwards without
ambiguity, resolving the name of a member that the module shows gives the definition of that member: the same one but for
its name, which is the name without the prefixes of the chain that the member comes by. The module shows its members,
unless a manifest that a declaration on the way leads to is at fault. -/
theorem resolveMember_visible (w : Workspace) (s : Session) (kind : MemberKind) {file : Path}
    (hfile : file.isAbsolute = true) (hinclude : ∀ dir ∈ w.includePaths, dir.isAbsolute = true)
    (hclear : IsClear w s file) :
    ∃ content, s.reads file = .ok content ∧
      (∀ members, answer (w.visibleMembers file kind) s = .ok members →
        ∀ r ∈ members, ∃ m, answer (w.resolveMember file r.name) s = .ok (some m) ∧ m.rename r.name = r ∧
          ∃ c text, IsChain w s content file c ∧ IsSimple [] file c ∧ s.reads (endFile file c) = .ok text ∧
            m ∈ Member.scan kind text (endFile file c) ∧ addPrefixes c m.name = r.name) ∧
      ∀ e, answer (w.visibleMembers file kind) s = .error e → Unresolved w s file e := by
  obtain ⟨content, hread, -⟩ := hclear file .refl
  have hreads : ∀ f, Reaches w s file f → ∃ text, s.reads f = .ok text := fun f hf => by
    obtain ⟨text, htext, -⟩ := hclear f hf
    exact ⟨text, htext⟩
  refine ⟨content, hread, fun members hmembers r hr => ?_, fun e he => visibleMembers_fault hfile hinclude hreads he⟩
  rw [w.answer_visibleMembers, Session.reads_bind hread] at hmembers
  obtain ⟨forwarded, hlist, hmembers⟩ := bind_eq_ok.1 hmembers
  obtain rfl := Except.ok.inj hmembers
  obtain ⟨chains, hchains, rfl⟩ := listWithin_chains _ [] content file forwarded (answer_list content ▸ hlist)
  obtain ⟨c, hchain, hsimple, text, m, hend, hfirst, rfl⟩ := exists_chain_of_visible hread hchains hr
  have hm := List.mem_of_find?_eq_some hfirst
  have hwalk := greedy_of_chain hchain hsimple hread hclear hend hm
  have hblock := ((hclear.of_reaches (hchain.reaches hread .refl)).unambiguous hend).noBlock
  rw [Member.name_rename]
  refine ⟨m, ?_, rfl, c, text, hchain, hsimple, hend, hm, rfl⟩
  rw [hwalk.answer_resolveMember hread hlist hend]
  exact answer_definedIn_of_find? s hblock hfirst

/-- The member that comes back around the ring, looked up again. -/
theorem resolveMember_visible_ring :
    Ring.fileA.isAbsolute = true ∧ (∀ dir ∈ Ring.workspace.includePaths, dir.isAbsolute = true) ∧
    IsClear Ring.workspace (.start Ring.disk) Ring.fileA ∧
    answer (Ring.workspace.visibleMembers Ring.fileA .var) (.start Ring.disk) =
      .ok [.var ⟨"$gap".toList, Ring.fileA, 1, 0, some "1px".toList⟩,
        .var ⟨"$b-tone".toList, Ring.fileB, 1, 0, some "red".toList⟩,
        .var ⟨"$b-a-gap".toList, Ring.fileA, 1, 0, some "1px".toList⟩] ∧
    ∃ m, answer (Ring.workspace.resolveMember Ring.fileA "$b-a-gap".toList) (.start Ring.disk) = .ok (some m) ∧
      m.rename "$b-a-gap".toList = .var ⟨"$b-a-gap".toList, Ring.fileA, 1, 0, some "1px".toList⟩ ∧
      ∃ c text, IsChain Ring.workspace (.start Ring.disk) Ring.textA Ring.fileA c ∧ IsSimple [] Ring.fileA c ∧
        (Session.start Ring.disk).reads (endFile Ring.fileA c) = .ok text ∧
        m ∈ Member.scan .var text (endFile Ring.fileA c) ∧ addPrefixes c m.name = "$b-a-gap".toList := by
  have hvisible : answer (Ring.workspace.visibleMembers Ring.fileA .var) (.start Ring.disk) =
      .ok [.var ⟨"$gap".toList, Ring.fileA, 1, 0, some "1px".toList⟩,
        .var ⟨"$b-tone".toList, Ring.fileB, 1, 0, some "red".toList⟩,
        .var ⟨"$b-a-gap".toList, Ring.fileA, 1, 0, some "1px".toList⟩] := by decide +kernel
  have hread : (Session.start Ring.disk).reads Ring.fileA = .ok Ring.textA := by decide +kernel
  obtain ⟨content, hcontent, hall, -⟩ :=
    resolveMember_visible Ring.workspace (.start Ring.disk) .var rfl (by decide) Ring.isClear
  obtain rfl := Except.ok.inj (hread.symm.trans hcontent)
  exact ⟨rfl, by decide, Ring.isClear, hvisible,
    hall _ hvisible (.var ⟨"$b-a-gap".toList, Ring.fileA, 1, 0, some "1px".toList⟩) (by decide +kernel)⟩

end Agreement

end SassModules
