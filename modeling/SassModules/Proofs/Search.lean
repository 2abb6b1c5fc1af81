import SassModules.Proofs.Listing

/-!
# The search for one member

Following a member takes, in each file, the first declaration whose prefix comes off the name and whose module resolves.
`Greedy` is that walk as a relation: from a name in a file, with some files open, along a chain to a name in another
file. There is exactly one such walk (`Greedy.unique`). A search that answers has taken it (`findWithin_greedy`), and a
walk is found by every search that may go as deep as it is long (`Greedy.answer_findWithin`). Its chain is one of the
simple chains that a listing sums over (`Greedy.isChain`, `Greedy.isSimple`), and its prefixes turn the last name back
into the first (`Greedy.addPrefixes`); so what the search reaches, the listing shows (`Greedy.mem_exposed`).
-/

namespace SassModules

open Forwarding Hop

/-! ## The first declaration that fits -/

section FirstFit

variable (w : Workspace) (s : Session)

/-- The prefix of the declaration comes off the name, and its module resolves. -/
structure Fits (file : Path) (member : Text) (d : Reexport) : Prop where
  strips : (Name.stripPrefix? d.pre member).isSome = true
  resolves : (w.target? s file d.path).isSome = true

/-- The hop is the first declaration of the text that fits. -/
structure IsFirstFit (content : Text) (file : Path) (member : Text) (h : Hop) : Prop where
  hop : IsHop w s content file h
  fits : Fits w s file member h.decl
  first : ∀ i < h.position, ∀ d, (Reexport.scan content)[i]? = some d → ¬ Fits w s file member d

variable {w s} {V : OpenFiles} {content member : Text} {file : Path} {h h' : Hop}

theorem not_fits_iff {d : Reexport} :
    ¬ Fits w s file member d ↔ Name.stripPrefix? d.pre member = none ∨ w.target? s file d.path = none := by
  constructor
  · intro hnot
    by_contra hor
    simp only [not_or, ← ne_eq, Option.ne_none_iff_isSome] at hor
    exact hnot ⟨hor.1, hor.2⟩
  · rintro (hs | ht) hfits
    · simpa [hs] using hfits.strips
    · simpa [ht] using hfits.resolves

theorem IsFirstFit.unique (hh : IsFirstFit w s content file member h) (hh' : IsFirstFit w s content file member h') :
    h = h' := by
  have hpos : h.position = h'.position := by
    rcases Nat.lt_trichotomy h.position h'.position with hlt | heq | hlt
    · exact absurd hh.fits (hh'.first _ hlt _ hh.hop.scanned)
    · exact heq
    · exact absurd hh'.fits (hh.first _ hlt _ hh'.hop.scanned)
  obtain ⟨position, decl, target⟩ := h
  obtain ⟨position', decl', target'⟩ := h'
  obtain rfl : position = position' := hpos
  obtain rfl : decl = decl' := Option.some.inj (hh.hop.scanned.symm.trans hh'.hop.scanned)
  obtain rfl : target = target' := Option.some.inj (hh.hop.resolved.symm.trans hh'.hop.resolved)
  rfl

/-! ## What following the declarations of a text answers -/

variable {next : Text → Text → Path → Expansion (Option Origin)}

/-- A declaration is passed over because it does not fit, or it is followed and decides. -/
theorem followFirst_cons_eq_ok {d : Reexport} {ds : List Reexport} {r : Option Origin}
    (hnext : ∀ content member file, Steady (next content member file))
    (h : answer (followFirst w next member file (d :: ds)) ⟨s, V⟩ = .ok r) :
    ¬ Fits w s file member d ∧ answer (followFirst w next member file ds) ⟨s, V⟩ = .ok r ∨
      ∃ o target text found, Name.stripPrefix? d.pre member = some o ∧ w.target? s file d.path = some target ∧
        s.reads target = .ok text ∧ answer (next text o target) ⟨s, V⟩ = .ok found ∧
        r = some (found.getD ⟨o, target⟩) := by
  cases ho : Name.stripPrefix? d.pre member with
  | none =>
    rw [answer_followFirst_skip hnext (Or.inl ho)] at h
    exact Or.inl ⟨not_fits_iff.2 (Or.inl ho), h⟩
  | some o =>
    rcases hr : answer (w.resolve file d.path) s with e | _ | target
    · rw [answer_followFirst_fault hnext ho hr] at h
      cases h
    · rw [answer_followFirst_skip hnext (Or.inr hr)] at h
      exact Or.inl ⟨not_fits_iff.2 (Or.inr (Workspace.target?_of_ok hr)), h⟩
    · have ht := Workspace.target?_of_ok hr
      rw [answer_followFirst_hit hnext ho ht] at h
      obtain ⟨text, hread, h⟩ := bind_eq_ok.1 h
      obtain ⟨found, hfound, h⟩ := bind_eq_ok.1 h
      exact Or.inr ⟨o, target, text, found, rfl, ht, mapError_eq_ok.1 hread, hfound, (Except.ok.inj h).symm⟩

/-- Following declarations that gives an answer has followed the first one that fits, or there was none. -/
theorem followFirst_eq_ok {r : Option Origin} (hnext : ∀ content member file, Steady (next content member file)) :
    ∀ {ds : List Reexport}, answer (followFirst w next member file ds) ⟨s, V⟩ = .ok r →
      (r = none ∧ ∀ d ∈ ds, ¬ Fits w s file member d) ∨
      ∃ (i : Nat) (d : Reexport), ds[i]? = some d ∧ (∀ j < i, ∀ d', ds[j]? = some d' → ¬ Fits w s file member d') ∧
        ∃ o target text found, Name.stripPrefix? d.pre member = some o ∧ w.target? s file d.path = some target ∧
          s.reads target = .ok text ∧ answer (next text o target) ⟨s, V⟩ = .ok found ∧
          r = some (found.getD ⟨o, target⟩)
  | [], h => Or.inl ⟨(Except.ok.inj h).symm, fun _ hd => absurd hd List.not_mem_nil⟩
  | d :: ds, h => by
    rcases followFirst_cons_eq_ok hnext h with ⟨hnot, h⟩ | hfollowed
    · rcases followFirst_eq_ok hnext h with ⟨hr, hnone⟩ | ⟨i, d', hi, hbefore, hfollowed⟩
      · exact Or.inl ⟨hr, List.forall_mem_cons.2 ⟨hnot, hnone⟩⟩
      · refine Or.inr ⟨i + 1, d', hi, fun j hj d'' hd'' => ?_, hfollowed⟩
        cases j with
        | zero => cases hd''; exact hnot
        | succ j => exact hbefore j (Nat.lt_of_succ_lt_succ hj) d'' hd''
    · exact Or.inr ⟨0, d, rfl, fun j hj => absurd hj (Nat.not_lt_zero j), hfollowed⟩

/-- Declarations that resolve without a fault and do not fit are passed over. -/
theorem answer_followFirst_drop (hnext : ∀ content member file, Steady (next content member file)) :
    ∀ (ds : List Reexport) (i : Nat), (∀ d ∈ ds, ∃ found, answer (w.resolve file d.path) s = .ok found) →
      (∀ j < i, ∀ d, ds[j]? = some d → ¬ Fits w s file member d) →
      answer (followFirst w next member file ds) ⟨s, V⟩ = answer (followFirst w next member file (ds.drop i)) ⟨s, V⟩
  | [], i, _, _ => by rw [List.drop_nil]
  | _ :: _, 0, _, _ => rfl
  | d :: ds, i + 1, hok, hnot => by
    obtain ⟨⟨found, hfound⟩, hok⟩ := List.forall_mem_cons.1 hok
    have hskip : Name.stripPrefix? d.pre member = none ∨ answer (w.resolve file d.path) s = .ok none := by
      refine (not_fits_iff.1 (hnot 0 (Nat.succ_pos i) d rfl)).imp_right fun ht => ?_
      rw [hfound, ← Workspace.target?_of_ok hfound, ht]
    rw [answer_followFirst_skip hnext hskip, List.drop_succ_cons]
    exact answer_followFirst_drop hnext ds i hok fun j hj d' hd' => hnot (j + 1) (Nat.succ_lt_succ hj) d' hd'

theorem answer_followFirst_of_none (hnext : ∀ content member file, Steady (next content member file))
    (hok : ∀ d ∈ Reexport.scan content, ∃ found, answer (w.resolve file d.path) s = .ok found)
    (hnone : ∀ d ∈ Reexport.scan content, ¬ Fits w s file member d) :
    answer (followFirst w next member file (Reexport.scan content)) ⟨s, V⟩ = .ok none := by
  rw [answer_followFirst_drop hnext _ (Reexport.scan content).length hok
    fun _ _ d hd => hnone d (List.mem_of_getElem? hd), List.drop_length]
  rfl

theorem answer_followFirst_of_first {o : Text} (hnext : ∀ content member file, Steady (next content member file))
    (hok : ∀ d ∈ Reexport.scan content, ∃ found, answer (w.resolve file d.path) s = .ok found)
    (hh : IsFirstFit w s content file member h) (ho : Name.stripPrefix? h.decl.pre member = some o) :
    answer (followFirst w next member file (Reexport.scan content)) ⟨s, V⟩ = do
      let text ← (s.reads h.target).mapError .read
      let found ← answer (next text o h.target) ⟨s, V⟩
      return some (found.getD ⟨o, h.target⟩) := by
  have hdrop : (Reexport.scan content).drop h.position = h.decl :: (Reexport.scan content).drop (h.position + 1) := by
    obtain ⟨hlt, hget⟩ := List.getElem?_eq_some_iff.1 hh.hop.scanned
    rw [List.drop_eq_getElem_cons hlt, hget]
  rw [answer_followFirst_drop hnext _ h.position hok hh.first, hdrop, answer_followFirst_hit hnext ho hh.hop.resolved]

end FirstFit

/-! ## The greedy walk -/

/-- The walk of a member through the first declarations that fit, with the files in `V` open. It ends where the file is
open already, in `V` or passed on the way, and where no declaration fits. -/
inductive Greedy (w : Workspace) (s : Session) : OpenFiles → Text → Path → Text → List Hop → Origin → Prop
  | stop {V : OpenFiles} {content : Text} {file : Path} {member : Text}
      (hstop : file ∈ V ∨ ∀ d ∈ Reexport.scan content, ¬ Fits w s file member d) :
      Greedy w s V content file member [] ⟨member, file⟩
  | step {V : OpenFiles} {content text : Text} {file : Path} {member o : Text} {h : Hop} {hs : List Hop} {e : Origin}
      (hfile : file ∉ V) (hfirst : IsFirstFit w s content file member h)
      (hname : Name.stripPrefix? h.decl.pre member = some o) (hread : s.reads h.target = .ok text)
      (hrest : Greedy w s (file :: V) text h.target o hs e) : Greedy w s V content file member (h :: hs) e

/-- What a search answers for the walk along a chain: nothing when it has not moved. -/
def arrival (hs : List Hop) (e : Origin) : Option Origin := if hs = [] then none else some e

theorem ne_zero_of_listWithin {w : Workspace} {kind : MemberKind} {depth : Nat} {content : Text} {file : Path}
    {u : Walk} {ms : List Member} (h : answer (listWithin w kind depth content file) u = .ok ms) : depth ≠ 0 := by
  rintro rfl
  cases h

namespace Greedy

variable {w : Workspace} {s : Session} {V : OpenFiles} {content member : Text} {file : Path} {hs hs' : List Hop}
  {e e' : Origin}

theorem eq_of_nil (h : Greedy w s V content file member [] e) : e = ⟨member, file⟩ := by
  cases h
  rfl

/-- There is one greedy walk. -/
theorem unique (h : Greedy w s V content file member hs e) (h' : Greedy w s V content file member hs' e') :
    hs' = hs ∧ e' = e := by
  induction h generalizing hs' with
  | stop hstop =>
    cases h' with
    | stop _ => exact ⟨rfl, rfl⟩
    | step hfile hfirst _ _ _ =>
      rcases hstop with hV | hnone
      · exact absurd hV hfile
      · exact absurd hfirst.fits (hnone _ (List.mem_of_getElem? hfirst.hop.scanned))
  | step hfile hfirst hname hread hrest ih =>
    cases h' with
    | stop hstop =>
      rcases hstop with hV | hnone
      · exact absurd hV hfile
      · exact absurd hfirst.fits (hnone _ (List.mem_of_getElem? hfirst.hop.scanned))
    | step _ hfirst' hname' hread' hrest' =>
      obtain rfl := hfirst.unique hfirst'
      obtain rfl := Option.some.inj (hname.symm.trans hname')
      obtain rfl := Except.ok.inj (hread.symm.trans hread')
      obtain ⟨rfl, rfl⟩ := ih hrest'
      exact ⟨rfl, rfl⟩

theorem isChain (h : Greedy w s V content file member hs e) : IsChain w s content file hs := by
  induction h with
  | stop _ => exact .nil _ _
  | step _ hfirst _ hread _ ih => exact .cons hfirst.hop hread ih

theorem isSimple (h : Greedy w s V content file member hs e) : IsSimple V file hs := by
  induction h with
  | stop _ => exact isSimple_nil _ _
  | step hfile _ _ _ _ ih => exact isSimple_cons_iff.2 ⟨hfile, ih⟩

theorem file_eq (h : Greedy w s V content file member hs e) : e.file = endFile file hs := by
  induction h with
  | stop _ => rfl
  | step _ _ _ _ _ ih => exact ih

/-- The prefixes of the walk turn the last name back into the first, and the sigil is the same. -/
theorem addPrefixes (h : Greedy w s V content file member hs e) (hm : '$' ∉ Name.bare member) :
    Hop.addPrefixes hs e.name = member ∧ Name.sigil e.name = Name.sigil member := by
  induction h with
  | stop _ => exact ⟨rfl, rfl⟩
  | step _ _ hname _ _ ih =>
    obtain ⟨hsigil, hbare⟩ := Name.sigil_of_stripPrefix? hm hname
    obtain ⟨hadd, hsigil'⟩ := ih hbare
    rw [addPrefixes_cons, hadd]
    exact ⟨Name.addPrefix_of_stripPrefix? hm hname, hsigil'.trans hsigil⟩

/-- One more hop in front of a walk: where the rest has not moved, the hop's own file is reported. -/
theorem getD_arrival {o : Text} {h : Hop} (hrest : Greedy w s V content h.target o hs e) :
    some ((arrival hs e).getD ⟨o, h.target⟩) = arrival (h :: hs) e := by
  cases hs with
  | nil => rw [hrest.eq_of_nil]; rfl
  | cons _ _ => rfl

/-- Where a listing answers, and so resolves without a fault, a search that may go as deep finds the walk. -/
theorem answer_findWithin {kind : MemberKind} (h : Greedy w s V content file member hs e) {depth : Nat}
    {ms : List Member} (hlist : answer (listWithin w kind depth content file) ⟨s, V⟩ = .ok ms) :
    answer (findWithin w depth content member file) ⟨s, V⟩ = .ok (arrival hs e) := by
  induction h generalizing depth ms with
  | stop hstop =>
    obtain ⟨depth, rfl⟩ := Nat.exists_eq_succ_of_ne_zero (ne_zero_of_listWithin hlist)
    rw [answer_findWithin_succ]
    split
    · rfl
    · rename_i hfile
      rw [answer_listWithin_succ, if_neg hfile] at hlist
      have hok := fun d hd => (collect_eq_ok (steady_listWithin depth) hlist d hd).imp fun _ => And.left
      exact answer_followFirst_of_none (steady_findWithin depth) hok (hstop.resolve_left hfile)
  | @step V content text file member o hop hs e hfile hfirst hname hread hrest ih =>
    obtain ⟨depth, rfl⟩ := Nat.exists_eq_succ_of_ne_zero (ne_zero_of_listWithin hlist)
    rw [answer_listWithin_succ, if_neg hfile] at hlist
    have hok := collect_eq_ok (steady_listWithin depth) hlist
    -- the listing has expanded the target of the hop as well
    obtain ⟨found, hfound, htarget⟩ := hok hop.decl (List.mem_of_getElem? hfirst.hop.scanned)
    have hmem : hop.target ∈ found := by
      rw [← Workspace.target?_of_ok hfound]
      exact hfirst.hop.resolved
    obtain ⟨text', nested, hread', hnested⟩ := htarget hop.target hmem
    obtain rfl := Except.ok.inj (hread.symm.trans hread')
    rw [answer_findWithin_succ, if_neg hfile, answer_followFirst_of_first (steady_findWithin depth)
      (fun d hd => (hok d hd).imp fun _ => And.left) hfirst hname, Session.reads_bind hread, ih hnested,
      ← getD_arrival hrest]
    rfl

end Greedy

/-- A search that answers has taken the greedy walk. -/
theorem findWithin_greedy {w : Workspace} {s : Session} : ∀ (depth : Nat) (V : OpenFiles) (content member : Text)
    (file : Path) (r : Option Origin), answer (findWithin w depth content member file) ⟨s, V⟩ = .ok r →
    ∃ hs e, Greedy w s V content file member hs e ∧ r = arrival hs e
  | 0, _, _, _, _, _, h => by cases h
  | depth + 1, V, content, member, file, r, h => by
    rw [answer_findWithin_succ] at h
    by_cases hfile : file ∈ V
    · rw [if_pos hfile] at h
      exact ⟨[], _, .stop (Or.inl hfile), (Except.ok.inj h).symm⟩
    rw [if_neg hfile] at h
    rcases followFirst_eq_ok (steady_findWithin depth) h with
      ⟨rfl, hnone⟩ | ⟨i, d, hi, hbefore, o, target, text, found, ho, ht, hread, hfound, rfl⟩
    · exact ⟨[], _, .stop (Or.inr hnone), rfl⟩
    · obtain ⟨hs, e, hrest, rfl⟩ := findWithin_greedy depth (file :: V) text o target found hfound
      have hfits : Fits w s file member d := ⟨by rw [ho]; rfl, by rw [ht]; rfl⟩
      exact ⟨⟨i, d, target⟩ :: hs, e, .step hfile ⟨⟨hi, ht⟩, hfits, hbefore⟩ ho hread hrest,
        hrest.getD_arrival (h := ⟨i, d, target⟩)⟩

/-! ## What a search answers -/

section Results

variable {w : Workspace} {s : Session} {V : OpenFiles} {content member : Text} {file : Path}

/-- **A search takes the greedy walk and undoes its prefixes.** It answers nothing exactly when the walk does not move,
and otherwise where the walk ends; putting the prefixes of the walk back gives the member that was looked for. -/
theorem find_takes_greedy_walk {r : Option Origin} (hm : Reference.isMemberName member = true)
    (h : answer (find w content member file) ⟨s, V⟩ = .ok r) :
    ∃ hs e, Greedy w s V content file member hs e ∧
      (∀ hs' e', Greedy w s V content file member hs' e' → hs' = hs ∧ e' = e) ∧
      (r = none ↔ hs = []) ∧ (hs ≠ [] → r = some e) ∧ e.file = endFile file hs ∧
      addPrefixes hs e.name = member ∧ Name.isVariable e.name = Name.isVariable member := by
  rw [answer_find] at h
  obtain ⟨hs, e, hwalk, rfl⟩ := findWithin_greedy _ V content member file r h
  obtain ⟨hadd, hsigil⟩ := hwalk.addPrefixes (Name.not_mem_bare_of_isMemberName hm)
  refine ⟨hs, e, hwalk, fun hs' e' h' => hwalk.unique h', ?_, ?_, hwalk.file_eq, hadd, ?_⟩
  · unfold arrival
    split <;> simp_all
  · intro hne
    rw [arrival, if_neg hne]
  · rw [Name.isVariable_eq, Name.isVariable_eq, hsigil]

/-- Around the ring and back to the file that is open. -/
theorem find_takes_greedy_walk_ring :
    Reference.isMemberName "$b-a-gap".toList = true ∧
    answer (find Ring.workspace Ring.textA "$b-a-gap".toList Ring.fileA) ⟨.start Ring.disk, []⟩ =
      .ok (some ⟨"$gap".toList, Ring.fileA⟩) ∧
    ∃ hs e, Greedy Ring.workspace (.start Ring.disk) [] Ring.textA Ring.fileA "$b-a-gap".toList hs e ∧
      (∀ hs' e', Greedy Ring.workspace (.start Ring.disk) [] Ring.textA Ring.fileA "$b-a-gap".toList hs' e' →
        hs' = hs ∧ e' = e) ∧
      (some (⟨"$gap".toList, Ring.fileA⟩ : Origin) = none ↔ hs = []) ∧
      (hs ≠ [] → some (⟨"$gap".toList, Ring.fileA⟩ : Origin) = some e) ∧ e.file = endFile Ring.fileA hs ∧
      addPrefixes hs e.name = "$b-a-gap".toList ∧
      Name.isVariable e.name = Name.isVariable "$b-a-gap".toList := by
  have hm : Reference.isMemberName "$b-a-gap".toList = true := by decide +kernel
  have h : answer (find Ring.workspace Ring.textA "$b-a-gap".toList Ring.fileA) ⟨.start Ring.disk, []⟩ =
      .ok (some ⟨"$gap".toList, Ring.fileA⟩) := by decide +kernel
  exact ⟨hm, h, find_takes_greedy_walk hm h⟩

/-- What a walk reaches is among what its chain makes visible. -/
theorem Greedy.mem_exposed {kind : MemberKind} {hs : List Hop} {e : Origin} {text : Text} {d : Member}
    (h : Greedy w s V content file member hs e) (hm : '$' ∉ Name.bare member) (hread : s.reads e.file = .ok text)
    (hd : d ∈ Member.scan kind text e.file) (hname : d.name = e.name) (hpublic : Name.isPrivate e.name = false) :
    d.rename member ∈ exposed s kind file hs := by
  rw [h.file_eq] at hread hd
  refine (SassModules.mem_exposed hread).2 ⟨d, hd, ?_, ?_⟩
  · rw [hname]; exact hpublic
  · rw [hname, (h.addPrefixes hm).1]

/-- **What the search reaches, the listing shows.** A public definition that the search for a member leads to stands in
the listing of the same file under the name of the member. -/
theorem find_mem_list {kind : MemberKind} {o text : Text} {target : Path} {d : Member} {ms : List Member}
    (hm : Reference.isMemberName member = true)
    (hfind : answer (find w content member file) ⟨s, V⟩ = .ok (some ⟨o, target⟩))
    (hpublic : Name.isPrivate o = false) (hread : s.reads target = .ok text)
    (hd : d ∈ Member.scan kind text target) (hname : d.name = o)
    (hlist : answer (list w kind content file) ⟨s, V⟩ = .ok ms) : d.rename member ∈ ms := by
  rw [answer_find] at hfind
  rw [answer_list] at hlist
  obtain ⟨hs, e, hwalk, hr⟩ := findWithin_greedy _ V content member file _ hfind
  obtain ⟨chains, hchains, rfl⟩ := listWithin_chains _ V content file ms hlist
  have hne : hs ≠ [] := by
    rintro rfl
    cases hr
  obtain rfl : (⟨o, target⟩ : Origin) = e := by
    rw [arrival, if_neg hne] at hr
    exact Option.some.inj hr
  have hmem : hs ∈ chains := (hchains.mem_iff hs).2 ⟨hne, hwalk.isChain, hwalk.isSimple⟩
  exact List.mem_flatMap.2
    ⟨hs, hmem, hwalk.mem_exposed (Name.not_mem_bare_of_isMemberName hm) hread hd hname hpublic⟩

/-- The variable that the search finds at the far end of the ring. -/
theorem find_mem_list_ring :
    answer (find Ring.workspace Ring.textA "$b-a-gap".toList Ring.fileA) ⟨.start Ring.disk, []⟩ =
      .ok (some ⟨"$gap".toList, Ring.fileA⟩) ∧
    answer (list Ring.workspace .var Ring.textA Ring.fileA) ⟨.start Ring.disk, []⟩ =
      .ok [.var ⟨"$b-tone".toList, Ring.fileB, 1, 0, some "red".toList⟩,
        .var ⟨"$b-a-gap".toList, Ring.fileA, 1, 0, some "1px".toList⟩] ∧
    Member.rename "$b-a-gap".toList (.var ⟨"$gap".toList, Ring.fileA, 1, 0, some "1px".toList⟩) ∈
      [Member.var ⟨"$b-tone".toList, Ring.fileB, 1, 0, some "red".toList⟩,
        .var ⟨"$b-a-gap".toList, Ring.fileA, 1, 0, some "1px".toList⟩] := by
  have hfind : answer (find Ring.workspace Ring.textA "$b-a-gap".toList Ring.fileA) ⟨.start Ring.disk, []⟩ =
      .ok (some ⟨"$gap".toList, Ring.fileA⟩) := by decide +kernel
  have hlist : answer (list Ring.workspace .var Ring.textA Ring.fileA) ⟨.start Ring.disk, []⟩ =
      .ok [.var ⟨"$b-tone".toList, Ring.fileB, 1, 0, some "red".toList⟩,
        .var ⟨"$b-a-gap".toList, Ring.fileA, 1, 0, some "1px".toList⟩] := by decide +kernel
  have hread : (Session.start Ring.disk).reads Ring.fileA = .ok Ring.textA := by decide +kernel
  exact ⟨hfind, hlist, find_mem_list (by decide +kernel) hfind (by decide +kernel) hread (by decide +kernel) rfl hlist⟩

end Results

end SassModules
