import SassModules.Proofs.Listing

/-!
# How deep a walk can go

A walk that follows `@forward`, or a scan that follows every declaration, opens only files that a module path resolves
to. Seen from an absolute path, such a file is spelt without `..` (`Workspace.isPlain_tries`), so that its names are its
route on the disk (`Disk.node?_names`). A route has two such spellings, with one slash and with two in front. So of
different paths that are given or spelt so there are no more than the given ones and twice the regular files
(`Disk.length_le_files`), which bounds every walk and every scan.
-/

namespace SassModules

open Forwarding Hop

/-! ## Plain paths -/

namespace Path

variable {p : Path}

/-- The path is seen from the root and does not go back up. -/
structure IsPlain (p : Path) : Prop where
  absolute : p.isAbsolute = true
  not_mem : ['.', '.'] ∉ p.names

/-- Below an anchor, every `..` finds a name to undo or is dropped. -/
theorem not_mem_foldl_collapseStep {a : Anchor} (ha : a ≠ .relative) : ∀ (ns kept : List Text), ['.', '.'] ∉ kept →
    ['.', '.'] ∉ ns.foldl (collapseStep a) kept
  | [], _, h => h
  | n :: ns, kept, h => by
    refine not_mem_foldl_collapseStep ha ns (collapseStep a kept n) ?_
    by_cases hn : n = ['.', '.']
    · rw [collapseStep.eq_def, if_pos hn]
      cases kept with
      | nil =>
        show ['.', '.'] ∉ if a = .relative then [n] else []
        rw [if_neg ha]
        exact List.not_mem_nil
      | cons k ks =>
        obtain ⟨hk, hks⟩ := not_or.1 (mt List.mem_cons.2 h)
        show ['.', '.'] ∉ if k = ['.', '.'] then n :: k :: ks else ks
        rw [if_neg (Ne.symm hk)]
        exact hks
    · rw [collapseStep.eq_def, if_neg hn]
      exact List.not_mem_cons_of_ne_of_not_mem (Ne.symm hn) h

theorem isPlain_normalize (h : p.isAbsolute = true) : p.normalize.IsPlain where
  absolute := h
  not_mem := by
    have ha : p.anchor ≠ .relative := by simpa [isAbsolute] using h
    show ['.', '.'] ∉ (p.names.foldl (collapseStep p.anchor) []).reverse
    rw [List.mem_reverse]
    exact not_mem_foldl_collapseStep ha p.names [] List.not_mem_nil

theorem IsPlain.child (h : p.IsPlain) {n : Text} (hn : n ≠ ['.', '.']) : (p.child n).IsPlain where
  absolute := h.absolute
  not_mem := by
    simp only [Path.child, List.mem_append, List.mem_singleton, not_or]
    exact ⟨h.not_mem, Ne.symm hn⟩

theorem IsPlain.parent (h : p.IsPlain) : p.parent.IsPlain :=
  ⟨h.absolute, fun hm => h.not_mem (List.dropLast_subset _ hm)⟩

theorem IsPlain.withName (h : p.IsPlain) {f : Text → Text} (hf : f p.name ≠ ['.', '.']) : (p.withName f).IsPlain :=
  h.parent.child hf

/-- A plain path starts with one slash or with two. -/
theorem IsPlain.eq_or_eq (h : p.IsPlain) : p = ⟨.root, p.names⟩ ∨ p = ⟨.doubleRoot, p.names⟩ := by
  obtain ⟨a, ns⟩ := p
  cases a with
  | relative => exact absurd h.absolute (by simp [isAbsolute])
  | root => exact Or.inl rfl
  | doubleRoot => exact Or.inr rfl

theorem isAbsolute_child (p : Path) (n : Text) : (p.child n).isAbsolute = p.isAbsolute := rfl

theorem isAbsolute_join {q : Path} (h : p.isAbsolute = true) : (p.join q).isAbsolute = true := by
  unfold join
  split
  · assumption
  · exact h

theorem isAbsolute_of_mem_ancestors {q : Path} (h : p.isAbsolute = true) (hq : q ∈ p.ancestors) :
    q.isAbsolute = true := by
  obtain ⟨k, -, rfl⟩ := List.mem_map.1 hq
  exact h

end Path

/-! ## Candidates are plain -/

namespace Resolution

variable {base dir : Path} {ending : Text}

theorem append_ne_dots (he : ending ∈ styleExtensions) (n : Text) : n ++ ending ≠ ['.', '.'] := by
  have hlen : ∀ e ∈ styleExtensions, 2 < e.length := by decide
  intro h
  have h2 : n.length + ending.length = 2 := by
    rw [← List.length_append, h]
    rfl
  have := hlen ending he
  omega

theorem isPlain_plainFile (h : base.IsPlain) (he : ending ∈ styleExtensions) : (plainFile base ending).IsPlain :=
  h.withName (append_ne_dots he _)

theorem isPlain_partialFile (h : base.IsPlain) (he : ending ∈ styleExtensions) : (partialFile base ending).IsPlain :=
  h.withName (append_ne_dots he _)

theorem isPlain_inside (h : base.IsPlain) (he : ending ∈ styleExtensions) (stem : String) :
    (inside base stem ending).IsPlain := h.child (append_ne_dots he _)

theorem isPlain_relativeCandidates (h : base.IsPlain) : ∀ p ∈ relativeCandidates base, p.IsPlain := by
  intro p hp
  simp only [relativeCandidates, List.mem_append, List.mem_map] at hp
  rcases hp with ((⟨e, he, rfl⟩ | ⟨e, he, rfl⟩) | ⟨e, he, rfl⟩) | ⟨e, he, rfl⟩
  · exact isPlain_plainFile h he
  · exact isPlain_inside h he _
  · exact isPlain_inside h he _
  · exact isPlain_partialFile h he

theorem isPlain_packageCandidates (h : base.IsPlain) : ∀ p ∈ packageCandidates base, p.IsPlain := by
  intro p hp
  simp only [packageCandidates, List.mem_append, List.mem_map, List.mem_flatMap, List.mem_cons, List.not_mem_nil,
    or_false] at hp
  rcases hp with (⟨e, he, rfl | rfl⟩ | ⟨e, he, rfl⟩) | ⟨e, he, rfl⟩
  · exact isPlain_inside h he _
  · exact isPlain_inside h he _
  · exact isPlain_plainFile h he
  · exact isPlain_partialFile h he

theorem isPlain_seenFrom (h : dir.isAbsolute = true) (modulePath : Text) : (seenFrom dir modulePath).IsPlain :=
  Path.isPlain_normalize (Path.isAbsolute_join h)

theorem mem_of_mem_map_file {p : Path} {ps : List Path} (h : Try.file p ∈ ps.map .file) : p ∈ ps := by
  obtain ⟨q, hq, heq⟩ := List.mem_map.1 h
  cases heq
  exact hq

theorem isPlain_packageTries {s : Session} {p : Path} (h : dir.isAbsolute = true) {modulePath : Text}
    (hp : .file p ∈ packageTries s dir modulePath) : p.IsPlain := by
  have hpackage := isPlain_seenFrom h modulePath
  rcases List.mem_append.1 hp with hp | hp
  · unfold namedTries at hp
    split at hp
    · split at hp
      · obtain ⟨entry, -, heq⟩ := Option.map_eq_some_iff.1 (Option.mem_toList.1 hp)
        cases heq
        exact isPlain_seenFrom hpackage.absolute entry
      · cases List.mem_singleton.1 hp
    · cases hp
  · exact isPlain_packageCandidates hpackage p (mem_of_mem_map_file hp)

theorem mem_of_mem_upToFirst {α : Type} {f : α → Bool} {a : α} : ∀ {as : List α}, a ∈ upToFirst f as → a ∈ as
  | [], h => h
  | b :: bs, h => by
    unfold upToFirst at h
    split at h
    · exact List.mem_cons.2 (Or.inl (List.mem_singleton.1 h))
    · rcases List.mem_cons.1 h with rfl | h
      · exact List.mem_cons_self
      · exact List.mem_cons_of_mem _ (mem_of_mem_upToFirst h)

end Resolution

open Resolution in
/-- What a module path in a file with an absolute path may stand for is plain. -/
theorem Workspace.isPlain_tries {w : Workspace} {s : Session} {file p : Path} (hfile : file.isAbsolute = true)
    (hinclude : ∀ dir ∈ w.includePaths, dir.isAbsolute = true) {modulePath : Text}
    (hp : .file p ∈ w.tries s file modulePath) : p.IsPlain := by
  unfold tries at hp
  split at hp
  · cases hp
  split at hp
  · have hparent : file.parent.isAbsolute = true := hfile
    exact isPlain_relativeCandidates (isPlain_seenFrom hparent modulePath) p (mem_of_mem_map_file hp)
  rcases List.mem_append.1 hp with hp | hp
  · obtain ⟨packages, hpackages, hp⟩ := List.mem_flatMap.1 hp
    obtain ⟨dir, hdir, rfl⟩ := List.mem_map.1 (List.mem_of_mem_filter hpackages)
    have habsolute : (dir.child packageDir).isAbsolute = true := by
      rw [Path.isAbsolute_child]
      exact Path.isAbsolute_of_mem_ancestors (p := file.parent.normalize) hfile (mem_of_mem_upToFirst hdir)
    exact isPlain_packageTries habsolute hp
  · obtain ⟨dir, hdir, hp⟩ := List.mem_flatMap.1 (mem_of_mem_map_file hp)
    exact isPlain_packageCandidates (isPlain_seenFrom (hinclude dir hdir) modulePath) p hp

/-! ## The number of regular files -/

namespace Disk

variable {d : Disk} {p : Path} {r : Route}

/-- The routes at which a regular file stands. -/
def files (d : Disk) : Finset Route := (d.entries.map (·.1)).toFinset.filter fun r => (d.node? r).any (·.isFile)

theorem mem_files : r ∈ d.files ↔ ∃ n, d.node? r = some n ∧ n.isFile = true := by
  unfold files
  rw [Finset.mem_filter, Option.any_eq_true, and_iff_right_iff_imp]
  rintro ⟨n, hn, -⟩
  obtain ⟨e, he, -⟩ := Option.map_eq_some_iff.1 hn
  have hkey : e.1 = r := by simpa using List.find?_some he
  exact List.mem_toFinset.2 (List.mem_map.2 ⟨e, List.mem_of_find?_eq_some he, hkey⟩)

/-- No more files than entries that are files: an entry may be hidden by one in front of it. -/
theorem card_files_le (d : Disk) : d.files.card ≤ d.fileCount := by
  have hsub : d.files ⊆ ((d.entries.filter (·.2.isFile)).map (·.1)).toFinset := by
    intro r hr
    obtain ⟨n, hn, hfile⟩ := mem_files.1 hr
    obtain ⟨e, he, rfl⟩ := Option.map_eq_some_iff.1 hn
    have hkey : e.1 = r := by simpa using List.find?_some he
    exact List.mem_toFinset.2 (List.mem_map.2 ⟨e, List.mem_filter.2 ⟨List.mem_of_find?_eq_some he, hfile⟩, hkey⟩)
  calc d.files.card ≤ ((d.entries.filter (·.2.isFile)).map (·.1)).toFinset.card := Finset.card_le_card hsub
    _ ≤ ((d.entries.filter (·.2.isFile)).map (·.1)).length := List.toFinset_card_le _
    _ = d.fileCount := List.length_map _

/-- Names without `..` are the route they lead to. -/
theorem walk_eq_append {r' : Route} : ∀ (ns : List Text) (r : Route), ['.', '.'] ∉ ns → d.walk r ns = .ok r' →
    r' = r ++ ns
  | [], r, _, h => by
    unfold walk at h
    split at h
    · rw [List.append_nil]
      exact (Except.ok.inj h).symm
    · cases h
  | n :: ns, r, hns, h => by
    obtain ⟨hn, hns⟩ := not_or.1 (mt List.mem_cons.2 hns)
    unfold walk at h
    split at h
    · cases h
    split at h
    · cases h
    split at h
    · cases h
    rw [if_neg (Ne.symm hn)] at h
    split at h
    · cases h
    rw [walk_eq_append ns (r ++ [n]) hns h, List.append_assoc, List.singleton_append]

/-- The names of a plain path to a regular file are the route of the file. -/
theorem node?_names (hp : p.IsPlain) (hfile : d.isFile p = true) :
    ∃ n, d.node? p.names = some n ∧ n.isFile = true := by
  unfold isFile find? at hfile
  split at hfile
  · cases hfile
  split at hfile
  · rename_i r hr
    have hroute : r = p.names := by
      have := walk_eq_append _ _ (by rw [namesFromRoot, if_pos hp.absolute]; exact hp.not_mem) hr
      rw [this, namesFromRoot, if_pos hp.absolute, List.nil_append]
    rw [← hroute]
    exact Option.any_eq_true _ _ |>.1 hfile
  · cases hfile

/-- The path is one of the given ones, or a plain path of a regular file. -/
def Knows (d : Disk) (given : List Path) (p : Path) : Prop := p ∈ given ∨ p.IsPlain ∧ d.isFile p = true

/-- Different paths that are given or plain paths of regular files are no more than the given ones and twice the regular
files. -/
theorem length_le_files {given V : List Path} (hnodup : V.Nodup) (hV : ∀ f ∈ V, d.Knows given f) :
    V.length ≤ given.length + 2 * d.files.card := by
  have hsub : V.toFinset ⊆ given.toFinset ∪
      (d.files.image (Path.mk .root) ∪ d.files.image (Path.mk .doubleRoot)) := by
    intro f hf
    rw [Finset.mem_union, List.mem_toFinset]
    refine (hV f (List.mem_toFinset.1 hf)).imp_right fun ⟨hplain, hfile⟩ => ?_
    have hnames : f.names ∈ d.files := mem_files.2 (node?_names hplain hfile)
    rw [Finset.mem_union, Finset.mem_image, Finset.mem_image]
    exact hplain.eq_or_eq.imp (fun e => ⟨_, hnames, e.symm⟩) fun e => ⟨_, hnames, e.symm⟩
  calc V.length = V.toFinset.card := (List.toFinset_card_of_nodup hnodup).symm
    _ ≤ (given.toFinset ∪ (d.files.image (Path.mk .root) ∪ d.files.image (Path.mk .doubleRoot))).card :=
      Finset.card_le_card hsub
    _ ≤ given.toFinset.card + ((d.files.image (Path.mk .root)).card + (d.files.image (Path.mk .doubleRoot)).card) :=
      (Finset.card_union_le _ _).trans (Nat.add_le_add_left (Finset.card_union_le _ _) _)
    _ ≤ given.length + (d.files.card + d.files.card) :=
      Nat.add_le_add (List.toFinset_card_le given) (Nat.add_le_add Finset.card_image_le Finset.card_image_le)
    _ = given.length + 2 * d.files.card := by rw [Nat.two_mul]

end Disk

namespace Workspace

variable {w : Workspace} {s : Session} {file target : Path} {modulePath : Text}

/-- A module path leads to a regular file. -/
theorem isFile_target? (h : w.target? s file modulePath = some target) : s.disk.isFile target = true :=
  (mem_tries_of_target? h).2

/-- A module path in a file with an absolute path leads to a plain path. -/
theorem isPlain_target? (hfile : file.isAbsolute = true) (hinclude : ∀ dir ∈ w.includePaths, dir.isAbsolute = true)
    (h : w.target? s file modulePath = some target) : target.IsPlain :=
  isPlain_tries hfile hinclude (mem_tries_of_target? h).1

theorem knows_target? (hfile : file.isAbsolute = true) (hinclude : ∀ dir ∈ w.includePaths, dir.isAbsolute = true)
    (h : w.target? s file modulePath = some target) (given : List Path) : s.disk.Knows given target :=
  Or.inr ⟨isPlain_target? hfile hinclude h, isFile_target? h⟩

end Workspace

/-! ## Files that can be reached -/

section Reachable

variable (w : Workspace) (s : Session)

/-- A declaration in the text of the first file leads to the second. -/
def Forwards (file target : Path) : Prop :=
  ∃ text, s.reads file = .ok text ∧ ∃ d ∈ Reexport.scan text, w.target? s file d.path = some target

/-- Any number of declarations lead from the first file to the second. -/
abbrev Reaches : Path → Path → Prop := Relation.ReflTransGen (Forwards w s)

variable {w s} {start file : Path} {text : Text}

/-- A chain leads only to files that can be reached. -/
theorem IsChain.reaches {hs : List Hop} (h : IsChain w s text file hs) (hread : s.reads file = .ok text)
    (hfile : Reaches w s start file) : Reaches w s start (endFile file hs) := by
  induction h with
  | nil => exact hfile
  | cons hop hread' _ ih =>
    exact ih hread' (hfile.tail ⟨_, hread, _, List.mem_of_getElem? hop.scanned, hop.resolved⟩)

end Reachable

end SassModules
