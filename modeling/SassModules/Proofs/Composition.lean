import SassModules.Proofs.Agreement

/-!
# What a module shows is put together from what its forwarded modules show

A module lists its own public members and then, declaration by declaration, what the forwarded modules list, expanded on
the spot: with the module itself open, without keeping the first of each name and without leaving private names out. A
forwarded module that is asked by itself does all three. The two come to the same when the module cannot be reached
from what it forwards, so that an open module makes no difference (`answer_listWithin_open`), and when no prefix makes
a name private, so that nothing is left to leave out (`public_of_mem_list`). Keeping the first of each name inside a
part changes nothing in the whole, since names that are the same stay the same under a prefix
(`showsSame_renamedBy`).
-/

namespace SassModules

open Forwarding Hop Workspace

/-! ## The first of each name -/

/-- The first member of each name, in order. -/
def firstOfEachName (ms : List Member) : List Member := ms.eraseDupsBy fun m m' => m.name == m'.name

section FirstOfEachName

variable {m : Member} {ms : List Member} {seen : List Text}

theorem publicMembers_cons_of_skip (h : Name.isPrivate m.name = true ∨ m.name ∈ seen) :
    publicMembers seen (m :: ms) = publicMembers seen ms := by
  rw [publicMembers, if_pos (by simpa using h)]

theorem publicMembers_cons_of_keep (h : ¬ (Name.isPrivate m.name = true ∨ m.name ∈ seen)) :
    publicMembers seen (m :: ms) = m :: publicMembers (m.name :: seen) ms := by
  rw [publicMembers, if_neg (by simpa using h)]

/-- A list shows the first of each name among its public members that were not seen before. -/
theorem publicMembers_eq_firstOf : ∀ (seen : List Text) (ms : List Member),
    publicMembers seen ms = firstOf Member.name seen (ms.filter fun m => !Name.isPrivate m.name)
  | _, [] => rfl
  | seen, m :: ms => by
    have ih := fun seen => publicMembers_eq_firstOf seen ms
    by_cases hprivate : Name.isPrivate m.name = true
    · rw [publicMembers_cons_of_skip (Or.inl hprivate), List.filter_cons_of_neg (by simp [hprivate]), ih]
    · rw [List.filter_cons_of_pos (by simp [hprivate])]
      by_cases hseen : m.name ∈ seen
      · rw [publicMembers_cons_of_skip (Or.inr hseen), firstOf_cons_of_mem hseen, ih]
      · rw [publicMembers_cons_of_keep (by simp [hprivate, hseen]), firstOf_cons_of_not_mem hseen, ih]

theorem publicMembers_eq (ms : List Member) (seen : List Text) : publicMembers seen ms =
    firstOfEachName (ms.filter fun m => !Name.isPrivate m.name && !seen.contains m.name) := by
  rw [publicMembers_eq_firstOf, firstOf_eq_eraseDupsBy, List.filter_filter, firstOfEachName]
  exact congrArg _ (List.filter_congr fun m _ => Bool.and_comm _ _)

theorem publicMembers_of_public (h : ∀ m ∈ ms, Name.isPrivate m.name = false) :
    publicMembers [] ms = firstOfEachName ms := by
  rw [publicMembers_eq]
  congr 1
  refine List.filter_eq_self.2 fun m hm => ?_
  simp [h m hm]

/-- After a first part, the names that it showed are seen as well. -/
theorem publicMembers_append : ∀ (ms ms' : List Member) (seen : List Text), publicMembers seen (ms ++ ms') =
    publicMembers seen ms ++ publicMembers (((publicMembers seen ms).map Member.name).reverse ++ seen) ms'
  | [], _, _ => rfl
  | m :: ms, ms', seen => by
    rw [List.cons_append]
    by_cases hskip : Name.isPrivate m.name = true ∨ m.name ∈ seen
    · rw [publicMembers_cons_of_skip hskip, publicMembers_cons_of_skip hskip]
      exact publicMembers_append ms ms' seen
    · rw [publicMembers_cons_of_keep hskip, publicMembers_cons_of_keep hskip,
        publicMembers_append ms ms' (m.name :: seen)]
      simp

end FirstOfEachName

/-! ## Lists that show the same -/

/-- Two lists show the same members, whatever names were seen before. -/
def ShowsSame (ms ms' : List Member) : Prop := ∀ seen, publicMembers seen ms = publicMembers seen ms'

namespace ShowsSame

variable {ms ms' ns ns' : List Member}

theorem refl (ms : List Member) : ShowsSame ms ms := fun _ => rfl

theorem append (h : ShowsSame ms ms') (h' : ShowsSame ns ns') : ShowsSame (ms ++ ns) (ms' ++ ns') := by
  intro seen
  rw [publicMembers_append, publicMembers_append, h seen, h']

theorem flatten {parts parts' : List (List Member)} (h : List.Forall₂ ShowsSame parts parts') :
    ShowsSame parts.flatten parts'.flatten := by
  induction h with
  | nil => exact refl []
  | cons hpart _ ih =>
    rw [List.flatten_cons, List.flatten_cons]
    exact hpart.append ih

end ShowsSame

/-- The private members may be left out beforehand. -/
theorem showsSame_publicIn (kind : MemberKind) (text : Text) (file : Path) :
    ShowsSame (Member.scan kind text file) (publicIn kind text file) := by
  intro seen
  rw [publicMembers_eq, publicMembers_eq, publicIn, List.filter_filter]
  congr 1
  refine List.filter_congr fun m _ => ?_
  cases Name.isPrivate m.name <;> simp

theorem renamedBy_cons (d : Reexport) (m : Member) (ms : List Member) :
    renamedBy d (m :: ms) = m.rename (Name.addPrefix d.pre m.name) :: renamedBy d ms := rfl

/-- Of the members of a part, only the first of each name need get the prefix. The names `below` are those seen in the
part, and under the prefix none of them is shown any more. -/
theorem publicMembers_renamedBy (d : Reexport) : ∀ (ms : List Member) (below seen : List Text),
    (∀ m ∈ ms, Name.isPrivate m.name = false) →
    (∀ n ∈ below, Name.isPrivate (Name.addPrefix d.pre n) = true ∨ Name.addPrefix d.pre n ∈ seen) →
    publicMembers seen (renamedBy d (publicMembers below ms)) = publicMembers seen (renamedBy d ms)
  | [], _, _, _, _ => rfl
  | m :: ms, below, seen, hms, hbelow => by
    have hm := hms m List.mem_cons_self
    have hrest : ∀ m' ∈ ms, Name.isPrivate m'.name = false := fun m' hm' => hms m' (List.mem_cons_of_mem m hm')
    have hshown := Member.name_rename (Name.addPrefix d.pre m.name) m
    by_cases hmem : m.name ∈ below
    · have hskip := hbelow m.name hmem
      rw [← hshown] at hskip
      rw [publicMembers_cons_of_skip (Or.inr hmem), renamedBy_cons, publicMembers_cons_of_skip hskip]
      exact publicMembers_renamedBy d ms below seen hrest hbelow
    · rw [publicMembers_cons_of_keep (by simp [hm, hmem]), renamedBy_cons, renamedBy_cons]
      by_cases hskip : Name.isPrivate (m.rename (Name.addPrefix d.pre m.name)).name = true ∨
          (m.rename (Name.addPrefix d.pre m.name)).name ∈ seen
      · rw [publicMembers_cons_of_skip hskip, publicMembers_cons_of_skip hskip]
        refine publicMembers_renamedBy d ms _ seen hrest fun n hn => ?_
        rcases List.mem_cons.1 hn with rfl | hn
        · rwa [hshown] at hskip
        · exact hbelow n hn
      · rw [publicMembers_cons_of_keep hskip, publicMembers_cons_of_keep hskip, hshown]
        congr 1
        refine publicMembers_renamedBy d ms _ _ hrest fun n hn => ?_
        rcases List.mem_cons.1 hn with rfl | hn
        · exact Or.inr List.mem_cons_self
        · exact (hbelow n hn).imp_right (List.mem_cons_of_mem _)

theorem showsSame_renamedBy (d : Reexport) {ms : List Member} (hms : ∀ m ∈ ms, Name.isPrivate m.name = false) :
    ShowsSame (renamedBy d ms) (renamedBy d (publicMembers [] ms)) := fun seen =>
  (publicMembers_renamedBy d ms [] seen hms fun _ hn => absurd hn List.not_mem_nil).symm

/-! ## A module that cannot be reached may be open -/

section OpenModule

variable {w : Workspace} {s : Session} {kind : MemberKind} {V V' : OpenFiles} {file blocked : Path}

/-- Collecting asks no more of the nested listings than their answers for the texts that can be read. -/
theorem answer_collect_congr {next next' : Text → Path → Expansion (List Member)}
    (hsteady : ∀ content file, Steady (next content file)) (hsteady' : ∀ content file, Steady (next' content file)) :
    ∀ ds : List Reexport, (∀ d ∈ ds, ∀ target, w.target? s file d.path = some target → ∀ text,
      s.reads target = .ok text → answer (next text target) ⟨s, V⟩ = answer (next' text target) ⟨s, V'⟩) →
    answer (collect w kind next file ds) ⟨s, V⟩ = answer (collect w kind next' file ds) ⟨s, V'⟩
  | [], _ => rfl
  | d :: ds, h => by
    have ih : answer (collect w kind next file ds) ⟨s, V⟩ = answer (collect w kind next' file ds) ⟨s, V'⟩ :=
      answer_collect_congr hsteady hsteady' ds fun d' hd' => h d' (List.mem_cons_of_mem d hd')
    rcases hr : answer (w.resolve file d.path) s with e | _ | target
    · rw [answer_collect_fault hsteady hr, answer_collect_fault hsteady' hr]
    · rw [answer_collect_skip hsteady hr, answer_collect_skip hsteady' hr, ih]
    · have ht := Workspace.target?_of_ok hr
      rw [answer_collect_hit hsteady ht, answer_collect_hit hsteady' ht, ih]
      cases hread : s.reads target with
      | error cause => rfl
      | ok text =>
        rw [Except.mapError, ok_bind, ok_bind, h d List.mem_cons_self target ht text hread]

/-- Whether a file is open makes no difference to the listing of a module that does not reach it. -/
theorem answer_listWithin_open : ∀ (depth : Nat) (V V' : OpenFiles) (text : Text) (file : Path),
    (∀ f, f ≠ blocked → (f ∈ V ↔ f ∈ V')) → s.reads file = .ok text → ¬ Reaches w s file blocked →
    answer (listWithin w kind depth text file) ⟨s, V⟩ = answer (listWithin w kind depth text file) ⟨s, V'⟩
  | 0, _, _, _, _, _, _, _ => rfl
  | depth + 1, V, V', text, file, hV, hread, hblocked => by
    have hne : file ≠ blocked := fun e => hblocked (e ▸ .refl)
    rw [answer_listWithin_succ, answer_listWithin_succ]
    by_cases hopen : file ∈ V
    · rw [if_pos hopen, if_pos ((hV file hne).1 hopen)]
    · rw [if_neg hopen, if_neg (mt (hV file hne).2 hopen)]
      refine answer_collect_congr (steady_listWithin depth) (steady_listWithin depth) _
        fun d hd target ht text' hread' => ?_
      refine answer_listWithin_open depth _ _ text' target (fun f hf => ?_) hread' fun hreach => ?_
      · rw [List.mem_cons, List.mem_cons, hV f hf]
      · exact hblocked (.head ⟨text, hread, d, hd, ht⟩ hreach)

end OpenModule

/-! ## Prefixes that make no name private -/

section Private

variable {w : Workspace} {s : Session} {kind : MemberKind} {V : OpenFiles} {file : Path} {text : Text}

theorem Name.isPrivate_addPrefix {p n : Text} (hp : Reference.isName p = true) (hpublic : p.startsWith "_" = false) :
    Name.isPrivate (Name.addPrefix (some p) n) = false := by
  unfold Name.isPrivate
  rw [Name.bare_addPrefix (Name.not_mem_of_isName hp)]
  obtain ⟨c, p, rfl⟩ := List.exists_cons_of_ne_nil (Pattern.isName_iff.1 hp).1
  exact hpublic

/-- The prefix of a declaration leaves public names public. -/
theorem Reexport.isPrivate_addPrefix {d : Reexport} {n : Text} (hd : d ∈ Reexport.scan text)
    (hpublic : ∀ p ∈ d.pre, p.startsWith "_" = false) (hn : Name.isPrivate n = false) :
    Name.isPrivate (Name.addPrefix d.pre n) = false := by
  cases hp : d.pre with
  | none => exact hn
  | some p => exact Name.isPrivate_addPrefix (Reexport.isName_pre hd hp) (hpublic p hp)

variable (w s) in
/-- No declaration in a file that can be reached has a prefix that begins with an underscore. -/
def PublicPrefixes (file : Path) : Prop :=
  ∀ f text, Reaches w s file f → s.reads f = .ok text → ∀ d ∈ Reexport.scan text, ∀ p ∈ d.pre,
    p.startsWith "_" = false

theorem PublicPrefixes.of_forwards {target : Path} (h : PublicPrefixes w s file) (hstep : Forwards w s file target) :
    PublicPrefixes w s target := fun f text hf => h f text (.head hstep hf)

/-- A public name is public at the start of a chain. -/
theorem IsChain.isPrivate_addPrefixes {hs : List Hop} {n : Text} (hchain : IsChain w s text file hs) :
    s.reads file = .ok text → PublicPrefixes w s file → Name.isPrivate n = false →
      Name.isPrivate (addPrefixes hs n) = false := by
  induction hchain with
  | nil => exact fun _ _ hn => hn
  | cons hop hread' _ ih =>
    intro hread hpublic hn
    have hd := List.mem_of_getElem? hop.scanned
    have hrest := ih hread' (hpublic.of_forwards ⟨_, hread, _, hd, hop.resolved⟩) hn
    exact Reexport.isPrivate_addPrefix hd (hpublic _ _ .refl hread _ hd) hrest

/-- What a module lists is public. -/
theorem public_of_mem_list {ms : List Member} {m : Member} (hread : s.reads file = .ok text)
    (hpublic : PublicPrefixes w s file) (hlist : answer (list w kind text file) ⟨s, V⟩ = .ok ms) (hm : m ∈ ms) :
    Name.isPrivate m.name = false := by
  rw [answer_list] at hlist
  obtain ⟨chains, hchains, rfl⟩ := listWithin_chains _ V text file ms hlist
  obtain ⟨c, hc, hm⟩ := List.mem_flatMap.1 hm
  obtain ⟨-, hchain, -⟩ := (hchains.mem_iff c).1 hc
  unfold exposed at hm
  split at hm
  · obtain ⟨m', hm', rfl⟩ := List.mem_map.1 hm
    have hname : Name.isPrivate m'.name = false := by simpa using List.of_mem_filter hm'
    rw [Member.name_rename]
    exact hchain.isPrivate_addPrefixes hread hpublic hname
  · cases hm

end Private

/-! ## The parts and the whole -/

section Composition

variable {w : Workspace} {s : Session} {kind : MemberKind} {V : OpenFiles} {file : Path} {text : Text}

variable (w s kind file) in
/-- What a declaration shows, under its prefix: what its module shows, and nothing when that does not resolve. -/
def shownThrough (d : Reexport) : Except Fault (List Member) :=
  answer (w.resolve file d.path) s >>= fun found =>
    found.elim (.ok []) fun target => (answer (w.visibleMembers target kind) s).map (renamedBy d)

variable (w s kind file) in
/-- What a declaration contributes to a listing, where its module is listed by itself. -/
def listedThrough (d : Reexport) : Except Fault (List Member) :=
  answer (w.resolve file d.path) s >>= fun found => found.elim (.ok []) fun target => do
    let content ← (s.reads target).mapError .read
    let nested ← answer (list w kind content target) ⟨s, []⟩
    return renamedBy d (publicIn kind content target ++ nested)

/-- Collecting puts the parts together, or ends with the fault of the first that has one. -/
theorem answer_collect_eq_parts {next : Text → Path → Expansion (List Member)}
    (hsteady : ∀ content file, Steady (next content file)) : ∀ {ds : List Reexport},
    (∀ d ∈ ds, ∀ target, w.target? s file d.path = some target → ∀ text, s.reads target = .ok text →
      answer (next text target) ⟨s, V⟩ = answer (list w kind text target) ⟨s, []⟩) →
    answer (collect w kind next file ds) ⟨s, V⟩ = (ds.mapM (listedThrough w s kind file)).map List.flatten
  | [], _ => rfl
  | d :: ds, hnext => by
    have ih := answer_collect_eq_parts hsteady fun d' hd' => hnext d' (List.mem_cons_of_mem d hd')
    rw [List.mapM_cons, listedThrough]
    rcases hr : answer (w.resolve file d.path) s with e | _ | target
    · rw [answer_collect_fault hsteady hr]
      rfl
    · rw [answer_collect_skip hsteady hr, ih]
      cases ds.mapM (listedThrough w s kind file) <;> rfl
    · have ht := Workspace.target?_of_ok hr
      rw [answer_collect_hit hsteady ht, ih, ok_bind, Option.elim_some]
      cases hread : s.reads target with
      | error cause => rfl
      | ok text =>
        rw [Except.mapError, ok_bind, ok_bind, hnext d List.mem_cons_self target ht text hread]
        cases answer (list w kind text target) ⟨s, []⟩ with
        | error e => rfl
        | ok nested => cases ds.mapM (listedThrough w s kind file) <;> rfl

/-- A module lists by itself what it lists below another module that it does not reach. -/
theorem answer_listWithin_below {depth : Nat} {module : Path} (hfile : file.isAbsolute = true)
    (hinclude : ∀ dir ∈ w.includePaths, dir.isAbsolute = true) (hdepth : depthLimit s.disk = depth + 1)
    (hread : s.reads file = .ok text) (hmodule : ¬ Reaches w s file module) :
    answer (listWithin w kind depth text file) ⟨s, [module]⟩ = answer (list w kind text file) ⟨s, []⟩ := by
  have hlt := two_mul_files_lt_depthLimit s.disk
  have hopen : answer (listWithin w kind depth text file) ⟨s, [module]⟩ =
      answer (listWithin w kind depth text file) ⟨s, []⟩ :=
    answer_listWithin_open depth [module] [] text file (fun f hf => by simp [hf]) hread hmodule
  have hsame : listWithin w kind depth text file ⟨s, []⟩ = listWithin w kind (depthLimit s.disk) text file ⟨s, []⟩ :=
    (listWithin_eq_of_le hfile hinclude (by omega) text).trans
      (listWithin_eq_of_le hfile hinclude (Nat.le_of_lt hlt) text).symm
  rw [hopen, answer_list]
  simp only [answer, hsame]

/-- A module that no forwarded module leads back to lists the parts that the forwarded modules list by themselves. -/
theorem answer_list_eq_parts (hfile : file.isAbsolute = true)
    (hinclude : ∀ dir ∈ w.includePaths, dir.isAbsolute = true) (hread : s.reads file = .ok text)
    (hback : ∀ target, Forwards w s file target → ¬ Reaches w s target file) :
    answer (list w kind text file) ⟨s, []⟩ =
      ((Reexport.scan text).mapM (listedThrough w s kind file)).map List.flatten := by
  obtain ⟨depth, hdepth⟩ := Nat.exists_eq_succ_of_ne_zero (Nat.ne_zero_of_lt (two_mul_files_lt_depthLimit s.disk))
  rw [answer_list, hdepth, answer_listWithin_succ, if_neg List.not_mem_nil]
  -- the module is open while the forwarded ones are listed, which makes no difference to them
  refine answer_collect_eq_parts (steady_listWithin depth) fun d hd target ht text' hread' => ?_
  exact answer_listWithin_below (Workspace.isPlain_target? hfile hinclude ht).absolute hinclude hdepth hread'
    (hback target ⟨text, hread, d, hd, ht⟩)

/-- Under a prefix, a part shows what the module of the part shows by itself. -/
theorem showsSame_part (d : Reexport) {nested : List Member} (hnested : ∀ m ∈ nested, Name.isPrivate m.name = false) :
    ShowsSame (renamedBy d (publicIn kind text file ++ nested))
      (renamedBy d (publicMembers [] (Member.scan kind text file ++ nested))) := by
  rw [((showsSame_publicIn kind text file).append (.refl nested)) []]
  refine showsSame_renamedBy d fun m hm => ?_
  rcases List.mem_append.1 hm with hm | hm
  · simpa using List.of_mem_filter hm
  · exact hnested m hm

/-- What a declaration shows is what it contributes to the listing, or both end with the same fault. -/
theorem shownThrough_endsAlike {d : Reexport} (hread : s.reads file = .ok text) (hpublic : PublicPrefixes w s file)
    (hd : d ∈ Reexport.scan text) :
    EndsAlike ShowsSame (listedThrough w s kind file d) (shownThrough w s kind file d) := by
  unfold listedThrough shownThrough
  rcases hr : answer (w.resolve file d.path) s with e | _ | target
  · exact Or.inr ⟨e, rfl, rfl⟩
  · exact Or.inl ⟨[], [], rfl, rfl, .refl []⟩
  have hstep : Forwards w s file target := ⟨text, hread, d, hd, Workspace.target?_of_ok hr⟩
  rw [ok_bind, ok_bind, Option.elim_some, Option.elim_some, w.answer_visibleMembers]
  cases hread' : s.reads target with
  | error cause => exact Or.inr ⟨.read cause, rfl, rfl⟩
  | ok text' =>
    rw [Except.mapError, ok_bind, ok_bind]
    cases hnested : answer (list w kind text' target) ⟨s, []⟩ with
    | error e => exact Or.inr ⟨e, rfl, rfl⟩
    | ok nested =>
      exact Or.inl ⟨_, _, rfl, rfl, showsSame_part d fun m hm =>
        public_of_mem_list hread' (hpublic.of_forwards hstep) hnested hm⟩

/-- What modules show is public. -/
theorem public_of_mem_visibleMembers {ms : List Member} {m : Member}
    (h : answer (w.visibleMembers file kind) s = .ok ms) (hm : m ∈ ms) : Name.isPrivate m.name = false := by
  rw [w.answer_visibleMembers] at h
  obtain ⟨content, -, h⟩ := bind_eq_ok.1 h
  obtain ⟨forwarded, -, h⟩ := bind_eq_ok.1 h
  obtain rfl := Except.ok.inj h
  exact (find?_of_mem_publicMembers _ _ hm).2.1

/-- It stays so under the prefixes of the declarations. -/
theorem public_of_mem_shownThrough {d : Reexport} {ms : List Member} {m : Member} (hread : s.reads file = .ok text)
    (hpublic : PublicPrefixes w s file) (hd : d ∈ Reexport.scan text) (h : shownThrough w s kind file d = .ok ms)
    (hm : m ∈ ms) : Name.isPrivate m.name = false := by
  obtain ⟨found, -, h⟩ := bind_eq_ok.1 h
  cases found with
  | none =>
    obtain rfl := Except.ok.inj h
    cases hm
  | some target =>
    obtain ⟨shown, hshown, rfl⟩ := map_eq_ok.1 h
    obtain ⟨m', hm', rfl⟩ := List.mem_map.1 hm
    rw [Member.name_rename]
    exact Reexport.isPrivate_addPrefix hd (hpublic file text .refl hread d hd) (public_of_mem_visibleMembers hshown hm')

/-- **What a module shows is put together from what the modules it forwards show.** Where every file that can be reached
can be read, no forwarded module leads back and no prefix begins with an underscore, the module shows the first of each
name among its own public definitions and, declaration by declaration, what the forwarded module shows by itself, under
the prefix of the declaration. Where one of them ends with a fault, so does the module; such a fault is that of a manifest
that a declaration on the way leads to. -/
theorem visibleMembers_composed (w : Workspace) (s : Session) (kind : MemberKind) {file : Path}
    (hfile : file.isAbsolute = true) (hinclude : ∀ dir ∈ w.includePaths, dir.isAbsolute = true)
    (hreads : ∀ f, Reaches w s file f → ∃ text, s.reads f = .ok text)
    (hback : ∀ target, Forwards w s file target → ¬ Reaches w s target file) (hpublic : PublicPrefixes w s file) :
    ∃ text, s.reads file = .ok text ∧
      answer (w.visibleMembers file kind) s = ((Reexport.scan text).mapM (shownThrough w s kind file)).map
        (fun parts => firstOfEachName (publicIn kind text file ++ parts.flatten)) ∧
      ∀ e, answer (w.visibleMembers file kind) s = .error e → Unresolved w s file e := by
  obtain ⟨text, hread⟩ := hreads file .refl
  refine ⟨text, hread, ?_, fun e he => ?_⟩
  · rw [w.answer_visibleMembers, Session.reads_bind hread, answer_list_eq_parts hfile hinclude hread hback]
    rcases endsAlike_mapM fun d hd => shownThrough_endsAlike hread hpublic hd with
      ⟨listed, shown, hlisted, hshown, hall⟩ | ⟨e, hlisted, hshown⟩
    · have hsame : ShowsSame (Member.scan kind text file ++ listed.flatten)
          (publicIn kind text file ++ shown.flatten) :=
        (showsSame_publicIn kind text file).append (.flatten hall)
      rw [hlisted, hshown]
      refine congrArg Except.ok ((hsame []).trans (publicMembers_of_public fun m hm => ?_))
      rcases List.mem_append.1 hm with hm | hm
      · simpa using List.of_mem_filter hm
      · obtain ⟨part, hpart, hm⟩ := List.mem_flatten.1 hm
        obtain ⟨d, hd, hpart⟩ := exists_of_mem_mapM hshown hpart
        exact public_of_mem_shownThrough hread hpublic hd hpart hm
    · rw [hlisted, hshown]
      rfl
  · exact visibleMembers_fault hfile hinclude hreads he

/-! ### A module above the ring -/

namespace Ring

/-- The text of `/top.scss`, which forwards both files of the ring and has a variable of its own. -/
def textTop : Text := "@forward \"./a\" as t-*;\n@forward \"./b\";\n$tone: blue;".toList

def fileTop : Path := ⟨.root, ["top.scss".toList]⟩

/-- A disk with the ring and the file above it. -/
def diskTop : Disk := disk.insert fileTop.names (.file (Utf8.encode textTop))

/-- A workspace with an include path. -/
def workspaceTop : Workspace := ⟨⟨.root, []⟩, [⟨.root, ["lib".toList]⟩]⟩

theorem forwards_top {f target : Path} (hf : f ∈ [fileTop, fileA, fileB])
    (h : Forwards workspaceTop (.start diskTop) f target) : target ∈ [fileA, fileB] := by
  obtain ⟨text, hread, d, hd, ht⟩ := h
  have hsteps : ∀ f ∈ [fileTop, fileA, fileB], ∀ t ∈ ((Session.start diskTop).reads f).toOption, ∀ d ∈ Reexport.scan t,
      ∀ target ∈ workspaceTop.target? (.start diskTop) f d.path, target ∈ [fileA, fileB] := by decide +kernel
  exact hsteps f hf text (by rw [hread]; rfl) d hd target ht

/-- Below the file on top there is only the ring. -/
theorem reaches_top {f target : Path} (hf : f ∈ [fileTop, fileA, fileB])
    (h : Reaches workspaceTop (.start diskTop) f target) : target = f ∨ target ∈ [fileA, fileB] := by
  induction h with
  | refl => exact Or.inl rfl
  | tail _ hstep ih =>
    rcases ih with rfl | hmem
    · exact Or.inr (forwards_top hf hstep)
    · exact Or.inr (forwards_top (List.mem_cons_of_mem _ hmem) hstep)

end Ring

/-- Above the ring: the variable of the top hides the one that it forwards without a prefix. -/
theorem visibleMembers_composed_ring :
    Ring.fileTop.isAbsolute = true ∧ (∀ dir ∈ Ring.workspaceTop.includePaths, dir.isAbsolute = true) ∧
    (∀ f, Reaches Ring.workspaceTop (.start Ring.diskTop) Ring.fileTop f →
      ∃ text, (Session.start Ring.diskTop).reads f = .ok text) ∧
    (∀ target, Forwards Ring.workspaceTop (.start Ring.diskTop) Ring.fileTop target →
      ¬ Reaches Ring.workspaceTop (.start Ring.diskTop) target Ring.fileTop) ∧
    PublicPrefixes Ring.workspaceTop (.start Ring.diskTop) Ring.fileTop ∧
    answer (Ring.workspaceTop.visibleMembers Ring.fileTop .var) (.start Ring.diskTop) =
      .ok [.var ⟨"$tone".toList, Ring.fileTop, 2, 0, some "blue".toList⟩,
        .var ⟨"$t-gap".toList, Ring.fileA, 1, 0, some "1px".toList⟩,
        .var ⟨"$t-b-tone".toList, Ring.fileB, 1, 0, some "red".toList⟩,
        .var ⟨"$t-b-a-gap".toList, Ring.fileA, 1, 0, some "1px".toList⟩,
        .var ⟨"$a-gap".toList, Ring.fileA, 1, 0, some "1px".toList⟩,
        .var ⟨"$a-b-tone".toList, Ring.fileB, 1, 0, some "red".toList⟩] ∧
    ∃ text, (Session.start Ring.diskTop).reads Ring.fileTop = .ok text ∧
      ∃ parts, (Reexport.scan text).mapM (shownThrough Ring.workspaceTop (.start Ring.diskTop) .var Ring.fileTop) =
          .ok parts ∧
        answer (Ring.workspaceTop.visibleMembers Ring.fileTop .var) (.start Ring.diskTop) =
          .ok (firstOfEachName (publicIn .var text Ring.fileTop ++ parts.flatten)) := by
  have hinclude : ∀ dir ∈ Ring.workspaceTop.includePaths, dir.isAbsolute = true := by decide
  have hmem : ∀ f, Reaches Ring.workspaceTop (.start Ring.diskTop) Ring.fileTop f →
      f ∈ [Ring.fileTop, Ring.fileA, Ring.fileB] := fun f hf =>
    List.mem_cons.2 (Ring.reaches_top List.mem_cons_self hf)
  have hreads : ∀ f, Reaches Ring.workspaceTop (.start Ring.diskTop) Ring.fileTop f →
      ∃ text, (Session.start Ring.diskTop).reads f = .ok text := by
    intro f hf
    have hall : ∀ f ∈ [Ring.fileTop, Ring.fileA, Ring.fileB],
        ((Session.start Ring.diskTop).reads f).toOption.isSome = true := by decide +kernel
    have hsome := hall f (hmem f hf)
    cases hread : (Session.start Ring.diskTop).reads f with
    | ok text => exact ⟨text, rfl⟩
    | error cause => rw [hread] at hsome; cases hsome
  have hback : ∀ target, Forwards Ring.workspaceTop (.start Ring.diskTop) Ring.fileTop target →
      ¬ Reaches Ring.workspaceTop (.start Ring.diskTop) target Ring.fileTop := by
    intro target hstep hreach
    have htarget := Ring.forwards_top List.mem_cons_self hstep
    rcases Ring.reaches_top (List.mem_cons_of_mem _ htarget) hreach with rfl | htop
    · exact absurd htarget (by decide)
    · exact absurd htop (by decide)
  have hpublic : PublicPrefixes Ring.workspaceTop (.start Ring.diskTop) Ring.fileTop := by
    intro f text hf hread
    have hall : ∀ f ∈ [Ring.fileTop, Ring.fileA, Ring.fileB], ∀ t ∈ ((Session.start Ring.diskTop).reads f).toOption,
        ∀ d ∈ Reexport.scan t, ∀ p ∈ d.pre, p.startsWith "_" = false := by decide +kernel
    exact hall f (hmem f hf) text (by rw [hread]; rfl)
  have hvisible : answer (Ring.workspaceTop.visibleMembers Ring.fileTop .var) (.start Ring.diskTop) =
      .ok [.var ⟨"$tone".toList, Ring.fileTop, 2, 0, some "blue".toList⟩,
        .var ⟨"$t-gap".toList, Ring.fileA, 1, 0, some "1px".toList⟩,
        .var ⟨"$t-b-tone".toList, Ring.fileB, 1, 0, some "red".toList⟩,
        .var ⟨"$t-b-a-gap".toList, Ring.fileA, 1, 0, some "1px".toList⟩,
        .var ⟨"$a-gap".toList, Ring.fileA, 1, 0, some "1px".toList⟩,
        .var ⟨"$a-b-tone".toList, Ring.fileB, 1, 0, some "red".toList⟩] := by decide +kernel
  obtain ⟨text, hread, hcomposed, -⟩ := visibleMembers_composed Ring.workspaceTop (.start Ring.diskTop) .var rfl hinclude
    hreads hback hpublic
  obtain ⟨parts, hparts, hmembers⟩ := map_eq_ok.1 (hcomposed.symm.trans hvisible)
  exact ⟨rfl, hinclude, hreads, hback, hpublic, hvisible, text, hread, parts, hparts, by rw [hmembers, hvisible]⟩

end Composition

end SassModules
