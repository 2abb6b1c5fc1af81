import SassModules.Proofs.Coherence
import SassModules.Proofs.Composition
import SassModules.Proofs.Outcome

/-!
# What completion offers

The candidates at a cursor have labels that differ from each other, and none of them gives a private member away
(`Completion.candidates_distinct_and_public`). A member is offered for a definition at the end of a forward chain
(`IsShownBy`): its own name is public, and so is the name under the prefixes of the chain, by which it is offered.

Labels are the same only where names are. Three functions keep the first of each key, of members, of parameters and of
candidates; they are the same function of the key (`firstOf`), so that one lemma says that the keys it keeps differ.
Variables and mixins are told apart by the sigil, which no prefix takes away (`IsShownBy.sigil`).
-/

namespace SassModules

open Forwarding Hop Workspace Session

/-! ## The first of each key -/

theorem Parameter.distinct_eq_firstOf : ∀ (seen : List Text) (ps : List (Text × Option Text)),
    distinct seen ps = firstOf Prod.fst seen ps
  | _, [] => rfl
  | seen, p :: ps => by
    rw [distinct, distinct_eq_firstOf seen ps, distinct_eq_firstOf (p.1 :: seen) ps]
    by_cases hp : p.1 ∈ seen
    · rw [if_pos hp, firstOf_cons_of_mem hp]
    · rw [if_neg hp, firstOf_cons_of_not_mem hp]

theorem Completion.newLabels_eq_firstOf : ∀ (seen : List Text) (cs : List Candidate),
    newLabels seen cs = firstOf Candidate.label seen cs
  | _, [] => rfl
  | seen, c :: cs => by
    rw [newLabels, newLabels_eq_firstOf seen cs, newLabels_eq_firstOf (c.label :: seen) cs]
    by_cases hc : c.label ∈ seen
    · rw [if_pos (by simpa using hc), firstOf_cons_of_mem hc]
    · rw [if_neg (by simpa using hc), firstOf_cons_of_not_mem hc]

/-! ## First occurrences by position -/

namespace Member

/-- The member at a position is public, and none before it has its name. -/
def isFirstPublic (ms : List Member) (i : Nat) : Bool :=
  ms[i]?.any fun m => !Name.isPrivate m.name && (ms.take i).all fun m' => m'.name != m.name

/-- The public members that are the first of their name, in order. -/
def firstPublic (ms : List Member) : List Member :=
  ((List.range ms.length).filter (isFirstPublic ms)).filterMap (ms[·]?)

theorem firstPublic_concat (ms : List Member) (m : Member) : firstPublic (ms ++ [m]) =
    firstPublic ms ++ if Name.isPrivate m.name = false ∧ m.name ∉ ms.map name then [m] else [] := by
  have hbefore : ∀ i ∈ List.range ms.length, isFirstPublic (ms ++ [m]) i = isFirstPublic ms i := by
    intro i hi
    have hlt := List.mem_range.1 hi
    rw [isFirstPublic, isFirstPublic, List.getElem?_append_left hlt, List.take_append_of_le_length (Nat.le_of_lt hlt)]
  have hlast : isFirstPublic (ms ++ [m]) ms.length = decide (Name.isPrivate m.name = false ∧ m.name ∉ ms.map name) := by
    rw [isFirstPublic, List.getElem?_concat_length, List.take_left]
    rw [Bool.eq_iff_iff]
    simp
  rw [firstPublic, firstPublic, List.length_append, List.length_singleton, List.range_succ, List.filter_append,
    List.filterMap_append, List.filter_congr hbefore]
  congr 1
  · refine List.filterMap_congr fun i hi => List.getElem?_append_left ?_
    exact List.mem_range.1 (List.mem_of_mem_filter hi)
  · by_cases h : Name.isPrivate m.name = false ∧ m.name ∉ ms.map name
    · rw [if_pos h, List.filter_cons_of_pos (by simpa [hlast] using h)]
      simp
    · rw [if_neg h, List.filter_cons_of_neg (by simpa [hlast] using h)]
      simp

end Member

/-- The members that are shown are the first public occurrences of their names. -/
theorem Workspace.publicMembers_eq_firstPublic (ms : List Member) : publicMembers [] ms = Member.firstPublic ms := by
  rw [publicMembers_eq_firstOf]
  induction ms using List.reverseRecOn with
  | nil => rfl
  | append_singleton ms m ih =>
    rw [Member.firstPublic_concat, ← ih, List.filter_append]
    by_cases hprivate : Name.isPrivate m.name = true
    · rw [if_neg (by simp [hprivate]), List.filter_cons_of_neg (by simp [hprivate]), List.filter_nil, List.append_nil,
        List.append_nil]
    · -- a public name is among the public members exactly when it is among all
      have hnames : m.name ∈ (ms.filter fun m => !Name.isPrivate m.name).map Member.name ↔ m.name ∈ ms.map Member.name := by
        constructor
        · intro h
          obtain ⟨r, hr, hname⟩ := List.mem_map.1 h
          exact List.mem_map.2 ⟨r, List.mem_of_mem_filter hr, hname⟩
        · intro h
          obtain ⟨r, hr, hname⟩ := List.mem_map.1 h
          rw [← hname] at hprivate
          exact List.mem_map.2 ⟨r, List.mem_filter.2 ⟨hr, by simp [hprivate]⟩, hname⟩
      rw [List.filter_cons_of_pos (by simp [hprivate]), List.filter_nil, firstOf_concat]
      simp only [hnames, hprivate, List.not_mem_nil, not_false_eq_true, true_and]

/-! ## What stands behind a shown member -/

/-- The sigil of the names of a kind. -/
def MemberKind.sigil : MemberKind → Text
  | .mixin => []
  | .var => ['$']

/-- What a member of a kind is offered as. -/
def MemberKind.candidateKind : MemberKind → CandidateKind
  | .mixin => .mixin
  | .var => .var

section Shown

variable {w : Workspace} {s : Session} {kind : MemberKind} {module file : Path} {content text : Text} {hs : List Hop}
  {m r : Member} {ms : List Member}

variable (w s kind module) in
/-- The module shows the definition, which stands in the last file of the chain: its own name is public, and its name at
the start of the chain is public too. -/
structure IsShownBy (hs : List Hop) (m : Member) : Prop where
  chain : ∃ content, s.reads module = .ok content ∧ IsChain w s content module hs
  defined : ∃ text, s.reads (endFile module hs) = .ok text ∧ m ∈ Member.scan kind text (endFile module hs)
  isPublic : Name.isPrivate m.name = false
  isPublicAtStart : Name.isPrivate (addPrefixes hs m.name) = false

variable (w s kind module) in
/-- The members have different names, and the module shows each of them. -/
structure AreShown (ms : List Member) : Prop where
  nodup : (ms.map Member.name).Nodup
  shown : ∀ r ∈ ms, ∃ hs m, IsShownBy w s kind module hs m ∧ r = m.rename (addPrefixes hs m.name)

theorem areShown_nil : AreShown w s kind module [] := ⟨List.nodup_nil, fun _ h => absurd h List.not_mem_nil⟩

/-- A chain ends in a file that can be read. -/
theorem IsChain.exists_reads_endFile (hchain : IsChain w s content file hs) :
    s.reads file = .ok content → ∃ text, s.reads (endFile file hs) = .ok text := by
  induction hchain with
  | nil => exact fun hread => ⟨_, hread⟩
  | cons _ hread' _ ih => exact fun _ => ih hread'

/-- Whatever a module answers when it is asked for its members, it shows. -/
theorem areShown_of_visibleMembers (h : answer (w.visibleMembers module kind) s = .ok ms) :
    AreShown w s kind module ms := by
  rw [w.answer_visibleMembers] at h
  obtain ⟨content, hread, h⟩ := bind_eq_ok.1 h
  obtain ⟨forwarded, hlist, h⟩ := bind_eq_ok.1 h
  rw [mapError_eq_ok] at hread
  rw [answer_list] at hlist
  obtain rfl : publicMembers [] (Member.scan kind content module ++ forwarded) = ms := Except.ok.inj h
  obtain ⟨chains, hchains, rfl⟩ := listWithin_chains _ [] content module forwarded hlist
  rw [publicMembers_eq_firstOf]
  refine ⟨nodup_keys_firstOf _ _, fun r hr => ?_⟩
  obtain ⟨hr, hpublic⟩ := List.mem_filter.1 (of_mem_firstOf hr).1
  have hpublic : Name.isPrivate r.name = false := by simpa using hpublic
  rcases List.mem_append.1 hr with hown | hforwarded
  · exact ⟨[], r, ⟨⟨content, hread, .nil _ _⟩, ⟨content, hread, hown⟩, hpublic, hpublic⟩, (Member.rename_name r).symm⟩
  · obtain ⟨hs, hhs, hr⟩ := List.mem_flatMap.1 hforwarded
    obtain ⟨-, hchain, -⟩ := (hchains.mem_iff hs).1 hhs
    obtain ⟨text, htext⟩ := hchain.exists_reads_endFile hread
    obtain ⟨m, hm, hown, rfl⟩ := (mem_exposed htext).1 hr
    rw [Member.name_rename] at hpublic
    exact ⟨hs, m, ⟨⟨content, hread, hchain⟩, ⟨text, htext, hm⟩, hown, hpublic⟩, rfl⟩

/-! ### The sigil -/

theorem Member.sigil_of_mem_scan (hm : m ∈ Member.scan kind text file) : Name.sigil m.name = kind.sigil := by
  cases kind with
  | mixin =>
    obtain ⟨x, hx, rfl⟩ := List.mem_map.1 hm
    exact Name.sigil_of_not_mem (Name.not_mem_of_isName (Mixin.isName_of_mem_scan hx))
  | var =>
    obtain ⟨x, hx, rfl⟩ := List.mem_map.1 hm
    obtain ⟨n, hn, -⟩ := Variable.isName_of_mem_scan hx
    show Name.sigil x.name = _
    rw [hn]
    rfl

theorem IsChain.sigil_addPrefixes (hchain : IsChain w s content file hs) (n : Text) :
    Name.sigil (addPrefixes hs n) = Name.sigil n := by
  induction hchain with
  | nil => rfl
  | @cons _ _ _ hop _ hhop _ _ ih =>
    rw [addPrefixes_cons]
    cases hp : hop.decl.pre with
    | none => exact ih
    | some p => rw [Name.sigil_addPrefix (hhop.not_mem_pre hp), ih]

theorem IsShownBy.sigil (h : IsShownBy w s kind module hs m) : Name.sigil (addPrefixes hs m.name) = kind.sigil := by
  obtain ⟨content, -, hchain⟩ := h.chain
  obtain ⟨text, -, hm⟩ := h.defined
  rw [hchain.sigil_addPrefixes, Member.sigil_of_mem_scan hm]

/-- A member is offered behind an alias by the name that it is shown by. -/
theorem IsShownBy.memberCandidate_eq (h : IsShownBy w s kind module hs m) (span : Span) :
    (Completion.memberCandidate span (m.rename (addPrefixes hs m.name))).kind = kind.candidateKind ∧
      (Completion.memberCandidate span (m.rename (addPrefixes hs m.name))).label = addPrefixes hs m.name := by
  have hsigil := h.sigil
  obtain ⟨text, -, hm⟩ := h.defined
  cases kind with
  | mixin =>
    obtain ⟨x, -, rfl⟩ := List.mem_map.1 hm
    exact ⟨rfl, rfl⟩
  | var =>
    obtain ⟨x, -, rfl⟩ := List.mem_map.1 hm
    refine ⟨rfl, ?_⟩
    have hname := Name.sigil_append_bare (addPrefixes hs (Member.var x).name)
    rw [hsigil] at hname
    exact hname

/-- Variables and mixins have different names. -/
theorem AreShown.disjoint {bindings mixins : List Member} (hvar : AreShown w s .var module bindings)
    (hmixin : AreShown w s .mixin module mixins) : (bindings.map Member.name).Disjoint (mixins.map Member.name) := by
  intro n hn hn'
  obtain ⟨r, hr, rfl⟩ := List.mem_map.1 hn
  obtain ⟨r', hr', heq⟩ := List.mem_map.1 hn'
  obtain ⟨hs, m, hm, rfl⟩ := hvar.shown r hr
  obtain ⟨hs', m', hm', rfl⟩ := hmixin.shown r' hr'
  rw [Member.name_rename, Member.name_rename] at heq
  have hsigil := hm'.sigil
  rw [heq, hm.sigil] at hsigil
  cases hsigil

end Shown

/-! ## The parameters of a mixin -/

/-- The parameters that are read from a list have different names. -/
theorem Parameter.nodup_names_readList? {lines : List Text} {line paren column : Nat} {ps : List Parameter}
    (h : readList? lines line paren column = some ps) : (ps.map Parameter.name).Nodup := by
  obtain ⟨t, -, rfl⟩ := Option.map_eq_some_iff.1 h
  rw [List.map_map, distinct_eq_firstOf]
  exact nodup_keys_firstOf _ _

/-- The parameters of a mixin are read from one list, or there are none. -/
theorem Mixin.parameters_eq_nil_or {content name : Text} {file : Path} {m : Mixin}
    (h : find? content name file = some m) :
    m.parameters = [] ∨ ∃ line paren column, Parameter.readList? content.lines line paren column = some m.parameters := by
  obtain ⟨head, -, rfl⟩ := Option.map_eq_some_iff.1 h
  show (headParameters? content.lines head.1 head.2).getD [] = [] ∨
    ∃ line paren column, Parameter.readList? content.lines line paren column =
      some ((headParameters? content.lines head.1 head.2).getD [])
  cases hps : headParameters? content.lines head.1 head.2 with
  | none => exact Or.inl rfl
  | some ps =>
    unfold headParameters? at hps
    split at hps
    · exact Or.inr ⟨_, _, _, hps⟩
    · obtain rfl := Option.some.inj hps
      exact Or.inl rfl

theorem Mixin.nodup_parameters {content name : Text} {file : Path} {m : Mixin} (h : find? content name file = some m) :
    (m.parameters.map Parameter.name).Nodup := by
  rcases parameters_eq_nil_or h with hnil | ⟨line, paren, column, hps⟩
  · rw [hnil]
    exact List.nodup_nil
  · exact Parameter.nodup_names_readList? hps

namespace Completion

variable {w : Workspace} {s : Session} {d : Document} {p : Position} {cs : List Candidate}

/-- The mixin of a call is found in a text. -/
theorem exists_find?_of_calledMixin {aliasName : Option Text} {mixin : Text} {m : Mixin}
    (h : answer (calledMixin w d aliasName mixin) s = .ok (some m)) :
    ∃ content name file, Mixin.find? content name file = some m := by
  cases aliasName with
  | none => exact ⟨d.text, mixin, d.file, Except.ok.inj ((answer_findMixin d.text mixin d.file s).symm.trans h)⟩
  | some a =>
    obtain ⟨found, -, h⟩ := (w.steady_resolveAlias d.text a d.file).gives_bind (gives_of_answer h)
    cases found with
    | none => cases eq_of_gives_pure h
    | some module =>
      obtain ⟨found, hfound, h⟩ := (w.steady_resolveMember module mixin).gives_bind h
      rcases found with _ | x | v
      · cases eq_of_gives_pure h
      · obtain rfl := Option.some.inj (eq_of_gives_pure h)
        obtain ⟨-, -, e, text, -, -, -, hdefined⟩ := exists_walk_of_resolveMember hfound
        exact ⟨text, e.name, e.file, find?_of_definedIn_mixin hdefined⟩
      · cases eq_of_gives_pure h

/-! ## What is offered -/

/-- What stands behind a candidate for a member: a public variable of the document, or a member that a module which the
document uses shows, by its name or with the alias in front. -/
inductive IsOffered (includePaths : List Path) (d : Document) (s : Session) (c : Candidate) : Prop
  | own (v : Variable) (scanned : v ∈ Variable.scan d.text d.file) (isPublic : Name.isPrivate v.name = false)
      (kind : c.kind = .var) (label : c.label = v.name)
  | used (root : Path) (inRoot : d.root = some root) (i : Import) (scanned : i ∈ Import.scan d.text) (module : Path)
      (resolved : Workspace.target? ⟨root, includePaths⟩ s d.file i.path = some module) (kind : MemberKind)
      (hs : List Hop) (m : Member) (shown : IsShownBy ⟨root, includePaths⟩ s kind module hs m)
      (kind_eq : c.kind = kind.candidateKind)
      (label : c.label = addPrefixes hs m.name ∨ c.label = i.aliasName ++ '.' :: addPrefixes hs m.name)

/-- The labels differ, and what stands behind each candidate for a member is public. -/
structure IsOffer (includePaths : List Path) (d : Document) (s : Session) (cs : List Candidate) : Prop where
  distinct : (cs.map Candidate.label).Nodup
  offered : ∀ c ∈ cs, c.kind ≠ .argument → IsOffered includePaths d s c

variable {includePaths : List Path}

theorem isOffer_nil : IsOffer includePaths d s [] := ⟨List.nodup_nil, fun _ h => absurd h List.not_mem_nil⟩

/-- The parameters of a call. -/
theorem isOffer_arguments {aliasName : Option Text} {mixin : Text} (h : Gives (arguments w d p aliasName mixin) s cs) :
    IsOffer includePaths d s cs := by
  obtain ⟨found, hfound, h⟩ := (steady_calledMixin w d aliasName mixin).gives_bind h
  cases found with
  | none =>
    obtain rfl := eq_of_gives_pure h
    exact isOffer_nil
  | some m =>
    obtain ⟨content, name, file, hm⟩ := exists_find?_of_calledMixin hfound
    obtain rfl := eq_of_gives_pure h
    refine ⟨?_, fun c hc hkind => ?_⟩
    · have hlabel : Candidate.label ∘ parameterCandidate = ('$' :: ·) ∘ Parameter.name := rfl
      rw [List.map_map, hlabel, ← List.map_map]
      refine List.Nodup.map (fun _ _ h => (List.cons.inj h).2) ?_
      exact (Mixin.nodup_parameters hm).sublist (List.filter_sublist.map _)
    · obtain ⟨q, -, rfl⟩ := List.mem_map.1 hc
      exact absurd rfl hkind

/-! ### Behind an alias -/

/-- Members of a kind that may not be asked for. -/
theorem exists_areShown_of_gives {β : Type} {kind : MemberKind} {module : Path} {asked : Bool}
    {k : List Member → Query β} {b : β}
    (h : Gives (if asked then w.visibleMembers module kind >>= k else pure [] >>= k) s b) :
    ∃ ms, AreShown w s kind module ms ∧ Gives (k ms) s b := by
  cases asked with
  | false =>
    obtain ⟨ms, hms, h⟩ := (steady_pure []).gives_bind h
    obtain rfl := Except.ok.inj hms
    exact ⟨[], areShown_nil, h⟩
  | true =>
    obtain ⟨ms, hms, h⟩ := (w.steady_visibleMembers module kind).gives_bind h
    exact ⟨ms, areShown_of_visibleMembers hms, h⟩

theorem label_of_areShown {kind : MemberKind} {module : Path} {ms : List Member} (h : AreShown w s kind module ms)
    (span : Span) : (ms.map (memberCandidate span)).map Candidate.label = ms.map Member.name := by
  rw [List.map_map]
  refine List.map_congr_left fun r hr => ?_
  obtain ⟨hs, m, hm, rfl⟩ := h.shown r hr
  rw [Member.name_rename]
  exact (hm.memberCandidate_eq span).2

/-- The members behind an alias. -/
theorem isOffer_members {root : Path} {aliasName : Text} {filter : MemberFilter} {typed : Nat}
    (hroot : d.root = some root) (h : Gives (members ⟨root, includePaths⟩ d p aliasName filter typed) s cs) :
    IsOffer includePaths d s cs := by
  obtain ⟨found, hfound, h⟩ := (Workspace.steady_resolveAlias _ d.text aliasName d.file).gives_bind h
  cases found with
  | none =>
    obtain rfl := eq_of_gives_pure h
    exact isOffer_nil
  | some module =>
    obtain ⟨i, hi, htarget⟩ := Workspace.aliasLeadsTo_of_resolveAlias hfound
    obtain ⟨bindings, hbindings, h⟩ := exists_areShown_of_gives h
    obtain ⟨mixins, hmixins, h⟩ := exists_areShown_of_gives h
    obtain rfl := eq_of_gives_reported h
    have offered : ∀ {kind : MemberKind} {ms : List Member}, AreShown ⟨root, includePaths⟩ s kind module ms →
        ∀ r ∈ ms, IsOffered includePaths d s (memberCandidate (typedSpan p typed) r) := by
      intro kind ms hms r hr
      obtain ⟨hs, m, hm, rfl⟩ := hms.shown r hr
      obtain ⟨hkind, hlabel⟩ := hm.memberCandidate_eq (typedSpan p typed)
      exact .used root hroot i (List.mem_of_find?_eq_some hi) module htarget kind hs m hm hkind (Or.inl hlabel)
    refine ⟨?_, fun c hc _ => ?_⟩
    · rw [List.map_append, List.map_append, label_of_areShown hbindings, label_of_areShown hmixins]
      exact hbindings.nodup.append hmixins.nodup (hbindings.disjoint hmixins)
    · obtain ⟨r, hr, rfl⟩ := List.mem_map.1 hc
      rcases List.mem_append.1 hr with hr | hr
      · exact offered hbindings r hr
      · exact offered hmixins r hr

/-! ### In scope -/

/-- A variable of a module is offered with the alias in front of the name that it is shown by. -/
theorem importedCandidate_label {module : Path} {hs : List Hop} {m : Member} {v : Variable} (span : Span)
    (aliasName : Text) (h : IsShownBy w s .var module hs m)
    (hv : asVariable (m.rename (addPrefixes hs m.name)) = some v) :
    (importedCandidate span aliasName v).label = aliasName ++ '.' :: addPrefixes hs m.name := by
  have hname : v.name = addPrefixes hs m.name := by
    cases m with
    | mixin x => cases hv
    | var x =>
      obtain rfl := Option.some.inj hv
      rfl
  have hsigil := Name.sigil_append_bare (addPrefixes hs m.name)
  rw [h.sigil] at hsigil
  show aliasName ++ ['.', '$'] ++ Name.bare v.name = _
  rw [hname, List.append_assoc, ← hsigil]
  simp [Name.bare, MemberKind.sigil]

/-- The variables of the modules that a document uses. -/
theorem isOffered_of_mem_importedVariables {root : Path} {span : Span} {c : Candidate} (hroot : d.root = some root) :
    ∀ (is : List Import) (cs : List Candidate), (∀ i ∈ is, i ∈ Import.scan d.text) →
      Gives (importedVariables ⟨root, includePaths⟩ d span is) s cs → c ∈ cs → IsOffered includePaths d s c
  | [], cs, _, h, hc => by
    obtain rfl := eq_of_gives_pure h
    exact absurd hc List.not_mem_nil
  | i :: is, cs, his, h, hc => by
    have ih : ∀ cs, Gives (importedVariables ⟨root, includePaths⟩ d span is) s cs → c ∈ cs →
        IsOffered includePaths d s c := fun cs =>
      isOffered_of_mem_importedVariables hroot is cs fun i' hi' => his i' (List.mem_cons_of_mem i hi')
    rw [importedVariables] at h
    split at h
    · exact ih cs h hc
    · obtain ⟨found, hfound, h⟩ := (Workspace.steady_resolve _ d.file i.path).gives_bind h
      cases found with
      | none => exact ih cs h hc
      | some module =>
        obtain ⟨ms, hms, h⟩ := (Workspace.steady_visibleMembers _ module .var).gives_bind h
        obtain ⟨others, hothers, h⟩ := (steady_importedVariables _ d span is).gives_bind h
        obtain rfl := eq_of_gives_pure h
        rcases List.mem_append.1 hc with hc | hc
        · obtain ⟨v, hv, rfl⟩ := List.mem_map.1 hc
          obtain ⟨r, hr, hv⟩ := List.mem_filterMap.1 hv
          obtain ⟨hs, m, hm, rfl⟩ := (areShown_of_visibleMembers hms).shown r hr
          have htarget := Workspace.target?_of_ok hfound
          exact .used root hroot i (his i List.mem_cons_self) module htarget .var hs m hm rfl
            (Or.inr (importedCandidate_label span i.aliasName hm hv))
        · exact ih others (gives_of_answer hothers) hc

/-- The variables in scope. -/
theorem isOffer_scope {root : Path} {typed : Nat} (hroot : d.root = some root)
    (h : Gives (scope ⟨root, includePaths⟩ d p typed) s cs) : IsOffer includePaths d s cs := by
  obtain ⟨is, his, h⟩ := (steady_imports d.text).gives_bind h
  obtain rfl := Except.ok.inj his
  obtain ⟨imported, himported, h⟩ := (steady_importedVariables _ d _ _).gives_bind h
  obtain rfl := eq_of_gives_pure h
  rw [newLabels_eq_firstOf]
  refine ⟨nodup_keys_firstOf _ _, fun c hc _ => ?_⟩
  rcases List.mem_append.1 (of_mem_firstOf hc).1 with hc | hc
  · obtain ⟨v, hv, rfl⟩ := List.mem_map.1 hc
    obtain ⟨hv, hpublic⟩ := List.mem_filter.1 hv
    exact .own v hv (by simpa using hpublic) rfl rfl
  · exact isOffered_of_mem_importedVariables hroot _ imported (fun _ hi => hi) (gives_of_answer himported) hc

/-! ### At a cursor -/

/-- Whatever the search for candidates gives is an offer: one case for each kind of context. -/
theorem isOffer_search (h : answer (search includePaths d p) s = .ok cs) : IsOffer includePaths d s cs := by
  have h := gives_of_report_bind (gives_of_answer h)
  dsimp only at h
  cases hcontext : Context.of? (d.textBefore p) with
  | none =>
    rw [hcontext] at h
    obtain rfl := eq_of_gives_reported h
    exact isOffer_nil
  | some context =>
    rw [hcontext] at h
    cases hroot : d.root with
    | none =>
      rw [hroot] at h
      obtain rfl := eq_of_gives_pure h
      exact isOffer_nil
    | some root =>
      rw [hroot] at h
      have h := gives_of_report_bind h
      cases context with
      | mixinArgument aliasName mixin => exact isOffer_arguments h
      | memberAccess aliasName filter typed => exact isOffer_members hroot h
      | scopeVariable typed => exact isOffer_scope hroot h

/-- **Completion offers every label once and no private member.** At every cursor there is an answer. Its labels differ
from each other, and behind every candidate for a variable or a mixin stands a definition whose own name is public, at
the end of a forward chain under whose prefixes the name is public as well. What a module shows of its own definitions
and the forwarded ones are the first occurrences of the public names, in order. -/
theorem candidates_distinct_and_public (includePaths : List Path) (d : Document) (p : Position) (s : Session) :
    (∃ cs, answer (candidates includePaths d p) s = .ok cs ∧ (cs.map Candidate.label).Nodup ∧
      ∀ c ∈ cs, c.kind ≠ .argument → IsOffered includePaths d s c) ∧
    ∀ (w : Workspace) (module : Path) (kind : MemberKind), answer (w.visibleMembers module kind) s = do
      let content ← (s.reads module).mapError .read
      let forwarded ← answer (list w kind content module) ⟨s, []⟩
      return Member.firstPublic (Member.scan kind content module ++ forwarded) := by
  constructor
  · obtain ⟨cs, hcs⟩ := exists_answer_candidates includePaths d p s
    have hoffer : IsOffer includePaths d s cs := by
      rw [candidates, answer_tryCatch] at hcs
      cases hsearch : answer (search includePaths d p) s with
      | ok found =>
        rw [hsearch] at hcs
        obtain rfl := Except.ok.inj hcs
        exact isOffer_search hsearch
      | error fault =>
        rw [hsearch] at hcs
        obtain rfl := eq_of_gives_reported (gives_of_answer hcs)
        exact isOffer_nil
    exact ⟨cs, hcs, hoffer.distinct, hoffer.offered⟩
  · intro w module kind
    rw [w.answer_visibleMembers]
    simp only [publicMembers_eq_firstPublic]

end Completion

end SassModules
