import SassModules.Proofs.Chain

/-!
# The listing of forwarded members

Listing the members that a file forwards is one sum over its simple chains. `AllChains` says of a list of chains that it
holds each simple chain of a text once, in the order of the declarations, a chain before the longer ones that it begins.
Whatever a listing answers is what these chains make visible, chain after chain (`listWithin_chains`); a file that is
open already has no simple chain, and its listing is empty. The induction is on the depth of the walk, and inside it on
the declarations that are left: those from position `i` on (`ChainsFrom`).
-/

namespace SassModules

open Forwarding Hop

section

variable (w : Workspace) (s : Session) (V : OpenFiles) (content : Text) (file : Path)

/-- All simple chains of a text, by the positions of their declarations; a chain stands before those that extend it. -/
structure AllChains (chains : List (List Hop)) : Prop where
  sorted : chains.Pairwise fun c c' => c.map position < c'.map position
  mem_iff : ∀ c, c ∈ chains ↔ c ≠ [] ∧ IsChain w s content file c ∧ IsSimple V file c

/-- The same for the chains whose first declaration stands at position `i` or later. -/
structure ChainsFrom (i : Nat) (chains : List (List Hop)) : Prop where
  sorted : chains.Pairwise fun c c' => c.map position < c'.map position
  mem_iff : ∀ c, c ∈ chains ↔
    ∃ h hs, c = h :: hs ∧ i ≤ h.position ∧ IsChain w s content file (h :: hs) ∧ IsSimple V file (h :: hs)

end

variable {w : Workspace} {s : Session} {kind : MemberKind} {V : OpenFiles} {content text : Text} {file target : Path}
  {i : Nat} {d : Reexport} {chains nested rest : List (List Hop)}

/-! ## Chains by their first declaration -/

theorem ChainsFrom.all (h : ChainsFrom w s V content file 0 chains) : AllChains w s V content file chains := by
  refine ⟨h.sorted, fun c => (h.mem_iff c).trans ⟨?_, ?_⟩⟩
  · rintro ⟨hop, hs, rfl, -, hchain, hsimple⟩
    exact ⟨List.cons_ne_nil _ _, hchain, hsimple⟩
  · rintro ⟨hne, hchain, hsimple⟩
    obtain ⟨hop, hs, rfl⟩ := List.exists_cons_of_ne_nil hne
    exact ⟨hop, hs, rfl, Nat.zero_le _, hchain, hsimple⟩

/-- An open file has no simple chain. -/
theorem allChains_of_open (h : file ∈ V) : AllChains w s V content file [] := by
  refine ⟨List.Pairwise.nil, fun c => ⟨fun hc => absurd hc List.not_mem_nil, ?_⟩⟩
  rintro ⟨hne, -, hsimple⟩
  obtain ⟨hop, hs, rfl⟩ := List.exists_cons_of_ne_nil hne
  exact absurd h (isSimple_cons_iff.1 hsimple).1

/-- No chain begins behind the last declaration. -/
theorem chainsFrom_length (h : (Reexport.scan content).length ≤ i) : ChainsFrom w s V content file i [] := by
  refine ⟨List.Pairwise.nil, fun c => ⟨fun hc => absurd hc List.not_mem_nil, ?_⟩⟩
  rintro ⟨hop, hs, rfl, hi, hchain, -⟩
  have hscan := (isChain_cons_iff.1 hchain).1.scanned
  rw [List.getElem?_eq_none (by omega)] at hscan
  cases hscan

/-- A declaration whose module does not resolve begins no chain. -/
theorem ChainsFrom.skip (h : ChainsFrom w s V content file (i + 1) chains) (hi : (Reexport.scan content)[i]? = some d)
    (ht : w.target? s file d.path = none) : ChainsFrom w s V content file i chains := by
  refine ⟨h.sorted, fun c => (h.mem_iff c).trans ⟨?_, ?_⟩⟩
  · rintro ⟨hop, hs, rfl, hpos, hchain, hsimple⟩
    exact ⟨hop, hs, rfl, by omega, hchain, hsimple⟩
  · rintro ⟨hop, hs, rfl, hpos, hchain, hsimple⟩
    refine ⟨hop, hs, rfl, Nat.lt_of_le_of_ne hpos fun e => ?_, hchain, hsimple⟩
    have hhop := (isChain_cons_iff.1 hchain).1
    have hd : hop.decl = d := by
      have hscan := hhop.scanned
      rw [← e, hi] at hscan
      exact (Option.some.inj hscan).symm
    have hres := hhop.resolved
    rw [hd, ht] at hres
    cases hres

/-- A chain through the declaration at position `i`: that declaration alone, or followed by a chain of its target. -/
theorem chain_head_iff {c : List Hop} (hfile : file ∉ V) (hi : (Reexport.scan content)[i]? = some d)
    (ht : w.target? s file d.path = some target) (hread : s.reads target = .ok text) :
    (∃ h hs, c = h :: hs ∧ h.position = i ∧ IsChain w s content file (h :: hs) ∧ IsSimple V file (h :: hs)) ↔
      ∃ hs, c = ⟨i, d, target⟩ :: hs ∧ IsChain w s text target hs ∧ IsSimple (file :: V) target hs := by
  constructor
  · rintro ⟨hop, hs, rfl, hpos, hchain, hsimple⟩
    obtain ⟨hhop, text', hread', hrest⟩ := isChain_cons_iff.1 hchain
    obtain ⟨position, decl, target'⟩ := hop
    obtain rfl : position = i := hpos
    obtain rfl : d = decl := Option.some.inj (hi.symm.trans hhop.scanned)
    obtain rfl : target = target' := Option.some.inj (ht.symm.trans hhop.resolved)
    obtain rfl : text = text' := Except.ok.inj (hread.symm.trans hread')
    exact ⟨hs, rfl, hrest, (isSimple_cons_iff.1 hsimple).2⟩
  · rintro ⟨hs, rfl, hchain, hsimple⟩
    exact ⟨⟨i, d, target⟩, hs, rfl, rfl, .cons ⟨hi, ht⟩ hread hchain, isSimple_cons_iff.2 ⟨hfile, hsimple⟩⟩

/-- The chains that begin with one hop, before chains that begin with a later one. -/
theorem sorted_hop {hop : Hop} (hnested : nested.Pairwise fun c c' => c.map position < c'.map position)
    (hne : ∀ c ∈ nested, c ≠ []) (hrest : rest.Pairwise fun c c' => c.map position < c'.map position)
    (hlater : ∀ c ∈ rest, ∃ h hs, c = h :: hs ∧ hop.position < h.position) :
    (([hop] :: nested.map (hop :: ·)) ++ rest).Pairwise fun c c' => c.map position < c'.map position := by
  have hbefore : ∀ hs, ∀ c ∈ rest, (hop :: hs).map position < c.map position := by
    intro hs c hc
    obtain ⟨h, hs', rfl, hlt⟩ := hlater c hc
    exact List.cons_lt_cons_iff.2 (Or.inl hlt)
  refine List.pairwise_append.2 ⟨List.pairwise_cons.2 ⟨?_, ?_⟩, hrest, ?_⟩
  · intro c hc
    obtain ⟨c', hc', rfl⟩ := List.mem_map.1 hc
    obtain ⟨h, hs, rfl⟩ := List.exists_cons_of_ne_nil (hne c' hc')
    exact List.cons_lt_cons_iff.2 (Or.inr ⟨rfl, List.nil_lt_cons _ _⟩)
  · exact hnested.map (hop :: ·) fun c c' h => List.cons_lt_cons_iff.2 (Or.inr ⟨rfl, h⟩)
  · intro c hc c' hc'
    rcases List.mem_cons.1 hc with rfl | hc
    · exact hbefore [] c' hc'
    · obtain ⟨hs, -, rfl⟩ := List.mem_map.1 hc
      exact hbefore hs c' hc'

/-- A declaration that resolves begins the chain of itself and those that go on with a chain of its target. -/
theorem ChainsFrom.hit (hrest : ChainsFrom w s V content file (i + 1) rest) (hfile : file ∉ V)
    (hi : (Reexport.scan content)[i]? = some d) (ht : w.target? s file d.path = some target)
    (hread : s.reads target = .ok text) (hnested : AllChains w s (file :: V) text target nested) :
    ChainsFrom w s V content file i (([⟨i, d, target⟩] :: nested.map (⟨i, d, target⟩ :: ·)) ++ rest) where
  sorted := by
    refine sorted_hop hnested.sorted (fun c hc => ((hnested.mem_iff c).1 hc).1) hrest.sorted fun c hc => ?_
    obtain ⟨h, hs, rfl, hpos, -, -⟩ := (hrest.mem_iff c).1 hc
    exact ⟨h, hs, rfl, hpos⟩
  mem_iff := by
    intro c
    have hfirst : c ∈ [⟨i, d, target⟩] :: nested.map ((⟨i, d, target⟩ : Hop) :: ·) ↔
        ∃ hs, c = ⟨i, d, target⟩ :: hs ∧ IsChain w s text target hs ∧ IsSimple (file :: V) target hs := by
      simp only [List.mem_cons, List.mem_map, hnested.mem_iff]
      constructor
      · rintro (rfl | ⟨hs, ⟨-, hchain, hsimple⟩, rfl⟩)
        · exact ⟨[], rfl, .nil _ _, isSimple_nil _ _⟩
        · exact ⟨hs, rfl, hchain, hsimple⟩
      · rintro ⟨hs, rfl, hchain, hsimple⟩
        by_cases hs0 : hs = []
        · exact Or.inl (by rw [hs0])
        · exact Or.inr ⟨hs, ⟨hs0, hchain, hsimple⟩, rfl⟩
    rw [List.mem_append, hfirst, ← chain_head_iff hfile hi ht hread, hrest.mem_iff]
    constructor
    · rintro (⟨h, hs, rfl, hpos, hc⟩ | ⟨h, hs, rfl, hpos, hc⟩)
      · exact ⟨h, hs, rfl, by omega, hc⟩
      · exact ⟨h, hs, rfl, by omega, hc⟩
    · rintro ⟨h, hs, rfl, hpos, hc⟩
      rcases Nat.eq_or_lt_of_le hpos with e | hlt
      · exact Or.inl ⟨h, hs, rfl, e.symm, hc⟩
      · exact Or.inr ⟨h, hs, rfl, hlt, hc⟩

/-! ## What a listing answers -/

theorem renamedBy_append (d : Reexport) (ms ms' : List Member) :
    renamedBy d (ms ++ ms') = renamedBy d ms ++ renamedBy d ms' := List.map_append

/-- The chains through one hop make visible what its target does, under the prefix of the hop. -/
theorem exposed_through (hop : Hop) (hread : s.reads hop.target = .ok text) (nested : List (List Hop)) :
    ([hop] :: nested.map (hop :: ·)).flatMap (exposed s kind file) =
      renamedBy hop.decl (publicIn kind text hop.target ++ nested.flatMap (exposed s kind hop.target)) := by
  rw [List.flatMap_cons, exposed_cons, exposed_nil hread, renamedBy_append, List.flatMap_map]
  congr 1
  simp only [exposed_cons, renamedBy, List.map_flatMap]

/-- The declarations from position `i` on collect what the chains from there make visible. -/
theorem collect_chains {next : Text → Path → Expansion (List Member)} (hfile : file ∉ V)
    (hsteady : ∀ content file, Steady (next content file))
    (hnext : ∀ text target ms, answer (next text target) ⟨s, file :: V⟩ = .ok ms →
      ∃ chains, AllChains w s (file :: V) text target chains ∧ ms = chains.flatMap (exposed s kind target)) :
    ∀ (ds : List Reexport) (i : Nat) (ms : List Member), (Reexport.scan content).drop i = ds →
      answer (collect w kind next file ds) ⟨s, file :: V⟩ = .ok ms →
      ∃ chains, ChainsFrom w s V content file i chains ∧ ms = chains.flatMap (exposed s kind file)
  | [], i, ms, hds, h => ⟨[], chainsFrom_length (List.drop_eq_nil_iff.1 hds), (Except.ok.inj h).symm⟩
  | d :: ds, i, ms, hds, h => by
    have hi : (Reexport.scan content)[i]? = some d := by
      rw [← List.head?_drop, hds]; rfl
    have hds' : (Reexport.scan content).drop (i + 1) = ds := by
      rw [← List.tail_drop, hds]; rfl
    rw [answer_collect_cons hsteady] at h
    obtain ⟨found, hfound, h⟩ := bind_eq_ok.1 h
    have ht := Workspace.target?_of_ok hfound
    cases found with
    | none =>
      obtain ⟨chains, hchains, rfl⟩ := collect_chains hfile hsteady hnext ds (i + 1) ms hds' h
      exact ⟨chains, hchains.skip hi ht, rfl⟩
    | some target =>
      obtain ⟨text, hread, h⟩ := bind_eq_ok.1 h
      obtain ⟨below, hbelow, h⟩ := bind_eq_ok.1 h
      obtain ⟨others, hothers, h⟩ := bind_eq_ok.1 h
      rw [mapError_eq_ok] at hread
      obtain ⟨nested, hnested, rfl⟩ := hnext text target below hbelow
      obtain ⟨rest, hrest, rfl⟩ := collect_chains hfile hsteady hnext ds (i + 1) others hds' hothers
      refine ⟨_, hrest.hit hfile hi ht hread hnested, ?_⟩
      rw [List.flatMap_append, exposed_through ⟨i, d, target⟩ hread nested]
      exact (Except.ok.inj h).symm

/-- A listing answers what the simple chains make visible. -/
theorem listWithin_chains : ∀ (depth : Nat) (V : OpenFiles) (content : Text) (file : Path) (ms : List Member),
    answer (listWithin w kind depth content file) ⟨s, V⟩ = .ok ms →
    ∃ chains, AllChains w s V content file chains ∧ ms = chains.flatMap (exposed s kind file)
  | 0, _, _, _, _, h => by cases h
  | depth + 1, V, content, file, ms, h => by
    rw [answer_listWithin_succ] at h
    by_cases hfile : file ∈ V
    · rw [if_pos hfile] at h
      exact ⟨[], allChains_of_open hfile, (Except.ok.inj h).symm⟩
    · rw [if_neg hfile] at h
      obtain ⟨chains, hchains, rfl⟩ := collect_chains hfile (steady_listWithin depth)
        (listWithin_chains depth (file :: V)) (Reexport.scan content) 0 ms List.drop_zero h
      exact ⟨chains, hchains.all, rfl⟩

/-- **A listing is the sum over the simple chains.** An open file lists nothing. What the listing of any other file
answers is, chain after chain, the public definitions in the last file of the chain, renamed by the prefixes of the
chain. -/
theorem list_eq_chains (w : Workspace) (s : Session) (kind : MemberKind) (V : OpenFiles) (content : Text)
    (file : Path) :
    (file ∈ V → answer (list w kind content file) ⟨s, V⟩ = .ok []) ∧
      (file ∉ V → ∀ ms, answer (list w kind content file) ⟨s, V⟩ = .ok ms →
        ∃ chains, AllChains w s V content file chains ∧ ms = chains.flatMap (exposed s kind file)) := by
  rw [answer_list]
  constructor
  · intro hfile
    obtain ⟨depth, hdepth⟩ := Nat.exists_eq_succ_of_ne_zero (show depthLimit s.disk ≠ 0 by unfold depthLimit; omega)
    rw [hdepth, answer_listWithin_succ, if_pos hfile]
  · intro _ ms h
    exact listWithin_chains _ V content file ms h

/-- Around the ring: the other file's variable, and the file's own one, which comes back under both prefixes. -/
theorem list_eq_chains_ring :
    (Ring.fileA ∈ [Ring.fileA] ∧
      answer (list Ring.workspace .var Ring.textA Ring.fileA) ⟨.start Ring.disk, [Ring.fileA]⟩ = .ok []) ∧
    Ring.fileA ∉ ([] : OpenFiles) ∧
      answer (list Ring.workspace .var Ring.textA Ring.fileA) ⟨.start Ring.disk, []⟩ =
        .ok [.var ⟨"$b-tone".toList, Ring.fileB, 1, 0, some "red".toList⟩,
          .var ⟨"$b-a-gap".toList, Ring.fileA, 1, 0, some "1px".toList⟩] ∧
      ∃ chains, AllChains Ring.workspace (.start Ring.disk) [] Ring.textA Ring.fileA chains ∧
        [.var ⟨"$b-tone".toList, Ring.fileB, 1, 0, some "red".toList⟩,
          .var ⟨"$b-a-gap".toList, Ring.fileA, 1, 0, some "1px".toList⟩] =
          chains.flatMap (exposed (.start Ring.disk) .var Ring.fileA) := by
  have h : answer (list Ring.workspace .var Ring.textA Ring.fileA) ⟨.start Ring.disk, []⟩ =
      .ok [.var ⟨"$b-tone".toList, Ring.fileB, 1, 0, some "red".toList⟩,
        .var ⟨"$b-a-gap".toList, Ring.fileA, 1, 0, some "1px".toList⟩] := by decide +kernel
  refine ⟨⟨by decide, (list_eq_chains _ _ _ _ _ _).1 (by decide)⟩, by decide, h, ?_⟩
  exact (list_eq_chains _ _ _ _ _ _).2 (by decide) _ h

end SassModules
