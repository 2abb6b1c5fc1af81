import SassModules.Graph.Discovery
import SassModules.Proofs.Directories
import SassModules.Proofs.Ordered

/-!
# Discovery descends to exactly the wanted files

A file below a directory is told by the names that lead down to it. Discovery yields it exactly when each directory on the
way can be listed and is not left out, and the way is not too long (`IsSought`). For the proof, the search is put as a
plain function of the names that each directory shows (`filesBelow`). The search itself agrees with it as long as it asks
only about what can be told, and ends with a fault otherwise: so there is an answer exactly when everything in the
directories that are reached can be told (`Disk.CanTell`).
-/

namespace SassModules

namespace Discovery

open Disk

variable {d : Disk} {o : Options} {dir root f : Path} {name n a : Text} {dirs ns : List Text} {height depth : Nat}

/-! ## The search as a function of what directories show -/

/-- The wanted files at a name of a directory, given those below each directory. -/
def filesAt (d : Disk) (o : Options) (next : Path → List Path) (dir : Path) (name : Text) : List Path :=
  if d.isDir (dir.child name) then if isExcluded o name then [] else next (dir.child name)
  else if d.isFile (dir.child name) && isWanted o (dir.child name) then [dir.child name]
  else []

/-- The wanted files below a directory, at most `height` levels down. -/
def filesBelow (d : Disk) (o : Options) : (height depth : Nat) → Path → List Path
  | 0, _, _ => []
  | height + 1, depth, dir =>
    if isTooDeep o depth then []
    else (d.shown dir).flatMap (filesAt d o (filesBelow d o height (depth + 1)) dir)

/-- What stands at a name: a directory that is not left out, with what is below it, or a wanted file. -/
theorem mem_filesAt {next : Path → List Path} : f ∈ filesAt d o next dir n ↔
    (d.isDir (dir.child n) = true ∧ isExcluded o n = false ∧ f ∈ next (dir.child n)) ∨
      (d.isFile (dir.child n) = true ∧ isWanted o (dir.child n) = true ∧ f = dir.child n) := by
  have hapart : d.isFile (dir.child n) = true → d.isDir (dir.child n) = false := by
    intro hfile
    obtain ⟨node, hnode, hisFile⟩ := (Option.any_eq_true _ _).1 hfile
    simp [isDir, hnode, Node.isDir, hisFile]
  unfold filesAt
  cases hdir : d.isDir (dir.child n) with
  | true =>
    have hfile : d.isFile (dir.child n) = false := by
      by_contra hne
      rw [hapart (by simpa using hne)] at hdir
      cases hdir
    cases hex : isExcluded o n <;> simp [hfile]
  | false => cases hfile : d.isFile (dir.child n) <;> cases hw : isWanted o (dir.child n) <;> simp

theorem mem_filesBelow_succ : f ∈ filesBelow d o (height + 1) depth dir ↔ isTooDeep o depth = false ∧
    ∃ n ∈ d.shown dir, f ∈ filesAt d o (filesBelow d o height (depth + 1)) dir n := by
  rw [filesBelow]
  cases isTooDeep o depth <;> simp

/-- What is yielded lies below the directory, under names that directories show. -/
theorem exists_descend_of_mem (h : f ∈ filesBelow d o height depth dir) :
    ∃ ns, ns ≠ [] ∧ f = dir.descend ns ∧ ∀ n ∈ ns, ∃ p, n ∈ d.shown p := by
  induction height generalizing depth dir with
  | zero => cases h
  | succ height ih =>
    obtain ⟨-, n, hn, h⟩ := mem_filesBelow_succ.1 h
    rcases mem_filesAt.1 h with ⟨-, -, h⟩ | ⟨-, -, rfl⟩
    · obtain ⟨ns, -, rfl, hns⟩ := ih h
      refine ⟨n :: ns, by simp, (Path.descend_cons dir n ns).symm, fun m hm => ?_⟩
      rcases List.mem_cons.1 hm with rfl | hm
      · exact ⟨dir, hn⟩
      · exact hns m hm
    · refine ⟨[n], by simp, rfl, fun m hm => ?_⟩
      rw [List.mem_singleton.1 hm]
      exact ⟨dir, hn⟩

/-- A path below a directory is yielded through the first of its names. -/
theorem descend_cons_mem : dir.descend (a :: ns) ∈ filesBelow d o (height + 1) depth dir ↔
    isTooDeep o depth = false ∧ a ∈ d.shown dir ∧
      ((d.isDir (dir.child a) = true ∧ isExcluded o a = false ∧
        (dir.child a).descend ns ∈ filesBelow d o height (depth + 1) (dir.child a)) ∨
      (ns = [] ∧ d.isFile (dir.child a) = true ∧ isWanted o (dir.child a) = true)) := by
  rw [mem_filesBelow_succ]
  refine and_congr_right fun _ => ?_
  constructor
  · rintro ⟨n, hn, h⟩
    rcases mem_filesAt.1 h with ⟨hdir, hex, h⟩ | ⟨hfile, hwanted, heq⟩
    · obtain ⟨ms, -, heq, -⟩ := exists_descend_of_mem h
      rw [← Path.descend_cons, Path.descend_inj] at heq
      obtain ⟨rfl, rfl⟩ := List.cons.inj heq
      exact ⟨hn, Or.inl ⟨hdir, hex, Path.descend_cons dir a ns ▸ h⟩⟩
    · obtain ⟨rfl, rfl⟩ := List.cons.inj (Path.descend_inj.1 (show dir.descend (a :: ns) = dir.descend [n] from heq))
      exact ⟨hn, Or.inr ⟨rfl, hfile, hwanted⟩⟩
  · rintro ⟨hn, ⟨hdir, hex, h⟩ | ⟨rfl, hfile, hwanted⟩⟩
    · exact ⟨a, hn, mem_filesAt.2 (Or.inl ⟨hdir, hex, Path.descend_cons dir a ns ▸ h⟩)⟩
    · exact ⟨a, hn, mem_filesAt.2 (Or.inr ⟨hfile, hwanted, rfl⟩)⟩

/-- What is yielded at a name begins with that name. -/
theorem exists_descend_of_mem_filesAt (h : f ∈ filesAt d o (filesBelow d o height depth) dir n) :
    ∃ ns, f = dir.descend (n :: ns) := by
  rcases mem_filesAt.1 h with ⟨-, -, h⟩ | ⟨-, -, rfl⟩
  · obtain ⟨ns, -, rfl, -⟩ := exists_descend_of_mem h
    exact ⟨ns, (Path.descend_cons dir n ns).symm⟩
  · exact ⟨[], rfl⟩

/-- What is yielded is strictly increasing. -/
theorem pairwise_filesBelow : (filesBelow d o height depth dir).Pairwise (compare · · = .lt) := by
  induction height generalizing depth dir with
  | zero => exact .nil
  | succ height ih =>
    rw [filesBelow]
    cases isTooDeep o depth with
    | true => exact .nil
    | false =>
      -- below one name by induction, and from one name to the next by the order of the names
      refine List.pairwise_flatMap.2 ⟨fun n _ => ?_, (pairwise_shown d dir).imp fun hlt x hx y hy => ?_⟩
      · unfold filesAt
        split
        · split
          · exact .nil
          · exact ih
        · split
          · exact List.pairwise_singleton _ _
          · exact .nil
      · obtain ⟨ns, rfl⟩ := exists_descend_of_mem_filesAt hx
        obtain ⟨ms, rfl⟩ := exists_descend_of_mem_filesAt hy
        exact Path.compare_descend hlt

/-! ## The way down -/

/-- The names that are left out: those of the list, and those that end as an entry with stars in front does. -/
def Options.LeavesOut (o : Options) (name : Text) : Prop :=
  name ∈ o.excluded ∨ ∃ entry ∈ o.excluded, entry.head? = some '*' ∧ entry.dropWhile (· == '*') <:+ name

theorem startsWith_star (t : Text) : t.startsWith "*" = true ↔ t.head? = some '*' := by
  cases t with
  | nil => decide
  | cons c t =>
    show ('*' == c && ([] : Text).isPrefixOf t) = true ↔ some c = some '*'
    constructor
    · intro h
      rw [beq_iff_eq.1 (Bool.and_eq_true_iff.1 h).1]
    · intro h
      obtain rfl := Option.some.inj h
      rfl

theorem isExcluded_eq_false_iff : isExcluded o name = false ↔ ¬ o.LeavesOut name := by
  rw [← Bool.not_eq_true, isExcluded, Bool.or_eq_true, List.contains_iff_mem, List.any_eq_true]
  simp only [Bool.and_eq_true, startsWith_star, Text.endsWith, List.isSuffixOf_iff_suffix]
  rfl

/-- Every directory that the names lead through can be listed and is not left out. -/
def IsOpenWay (d : Disk) (o : Options) (dir : Path) (dirs : List Text) : Prop :=
  ∀ front n, front ++ [n] <+: dirs → d.CanList (dir.descend (front ++ [n])) ∧ ¬ o.LeavesOut n

theorem isOpenWay_nil : IsOpenWay d o dir [] := by
  intro front n h
  simp at h

theorem isOpenWay_cons : IsOpenWay d o dir (a :: dirs) ↔
    (d.CanList (dir.child a) ∧ ¬ o.LeavesOut a) ∧ IsOpenWay d o (dir.child a) dirs := by
  constructor
  · intro h
    refine ⟨h [] a (by simp), fun front n hn => ?_⟩
    rw [← Path.descend_cons]
    exact h (a :: front) n (by simpa using hn)
  · rintro ⟨hfirst, hrest⟩ front n hn
    cases front with
    | nil =>
      obtain rfl : n = a := by simpa using hn
      exact hfirst
    | cons b front =>
      obtain ⟨rfl, hprefix⟩ := List.cons_prefix_cons.1 hn
      rw [List.cons_append, Path.descend_cons]
      exact hrest front n hprefix

theorem isTooDeep_eq_false_iff : isTooDeep o depth = false ↔ ∀ limit, o.maxDepth = some limit → (depth : Int) ≤ limit := by
  unfold isTooDeep
  cases o.maxDepth <;> simp

/-- Where a depth is allowed, so is every smaller one. -/
theorem isTooDeep_of_le {k : Nat} (hk : depth ≤ k) (h : isTooDeep o k = false) : isTooDeep o depth = false := by
  rw [isTooDeep_eq_false_iff] at h ⊢
  intro limit hlimit
  have := h limit hlimit
  omega

/-- The names lead down from a directory that can be listed to one that the search lists, at whatever depth it has come
to: the way is open, and the depth that is allowed does not end before. -/
structure Reaches (d : Disk) (o : Options) (depth : Nat) (dir : Path) (dirs : List Text) : Prop where
  listed : d.CanList dir
  below : ['.', '.'] ∉ dirs
  way : IsOpenWay d o dir dirs
  inDepth : isTooDeep o (depth + dirs.length) = false

theorem reaches_nil : Reaches d o depth dir [] ↔ d.CanList dir ∧ isTooDeep o depth = false :=
  ⟨fun h => ⟨h.listed, h.inDepth⟩, fun ⟨hlist, hdeep⟩ => ⟨hlist, List.not_mem_nil, isOpenWay_nil, hdeep⟩⟩

/-- Each directory on the way adds one to the depth. -/
theorem reaches_cons : Reaches d o depth dir (a :: dirs) ↔
    d.CanList dir ∧ a ≠ ['.', '.'] ∧ ¬ o.LeavesOut a ∧ Reaches d o (depth + 1) (dir.child a) dirs := by
  have hdepth : depth + (a :: dirs).length = depth + 1 + dirs.length := by rw [List.length_cons]; omega
  constructor
  · rintro ⟨hlist, hbelow, hway, hdeep⟩
    obtain ⟨ha, hbelow⟩ := not_or.1 (mt List.mem_cons.2 hbelow)
    obtain ⟨⟨hlist', hkept⟩, hway⟩ := isOpenWay_cons.1 hway
    exact ⟨hlist, Ne.symm ha, hkept, hlist', hbelow, hway, hdepth ▸ hdeep⟩
  · rintro ⟨hlist, ha, hkept, hlist', hbelow, hway, hdeep⟩
    refine ⟨hlist, fun hmem => ?_, isOpenWay_cons.2 ⟨⟨hlist', hkept⟩, hway⟩, hdepth ▸ hdeep⟩
    exact (List.mem_cons.1 hmem).elim (Ne.symm ha) hbelow

/-- The depth at the start of the way is allowed as well. -/
theorem Reaches.start (h : Reaches d o depth dir dirs) : isTooDeep o depth = false :=
  isTooDeep_of_le (Nat.le_add_right _ _) h.inDepth

/-- The first directory on the way is shown. -/
theorem Reaches.mem_shown (h : Reaches d o depth dir (a :: dirs)) : a ∈ d.shown dir := by
  obtain ⟨hlist, ha, -, hrest⟩ := reaches_cons.1 h
  obtain ⟨enterable, hnode⟩ := canList_iff.1 hrest.listed
  exact Disk.mem_shown hlist ha hnode

/-- A file is yielded, at whatever depth the search has come to, when its directory is reached and the levels that are
left do not end before it. -/
theorem descend_mem_iff (hname : name ≠ ['.', '.']) (hdots : ['.', '.'] ∉ dirs) :
    dir.descend (dirs ++ [name]) ∈ filesBelow d o height depth dir ↔
      dirs.length < height ∧ Reaches d o depth dir dirs ∧ d.isFile (dir.descend (dirs ++ [name])) = true ∧
        isWanted o (dir.descend (dirs ++ [name])) = true := by
  -- each directory on the way uses up one level of `height` and adds one to `depth`
  induction dirs generalizing height depth dir with
  | nil =>
    cases height with
    | zero => simp [filesBelow]
    | succ height =>
      rw [List.nil_append, descend_cons_mem, reaches_nil]
      constructor
      · rintro ⟨hdeep, hshown, ⟨-, -, h⟩ | ⟨-, hfile, hwanted⟩⟩
        -- what is yielded below a directory has at least one name more
        · obtain ⟨ns, hne, heq, -⟩ := exists_descend_of_mem h
          exact absurd (Path.descend_inj.1 heq).symm hne
        · exact ⟨Nat.succ_pos _, ⟨canList_of_mem_shown hshown, hdeep⟩, hfile, hwanted⟩
      · rintro ⟨-, ⟨hlist, hdeep⟩, hfile, hwanted⟩
        obtain ⟨node, hnode, -⟩ := (Option.any_eq_true _ _).1 hfile
        exact ⟨hdeep, Disk.mem_shown hlist hname hnode, Or.inr ⟨rfl, hfile, hwanted⟩⟩
  | cons a dirs ih =>
    obtain ⟨ha, hdots⟩ := not_or.1 (mt List.mem_cons.2 hdots)
    cases height with
    | zero => simp [filesBelow]
    | succ height =>
      rw [List.cons_append, descend_cons_mem, Path.descend_cons, List.length_cons, Nat.succ_lt_succ_iff]
      constructor
      · rintro ⟨-, hshown, ⟨-, hex, h⟩ | ⟨hnil, -⟩⟩
        · obtain ⟨hheight, hreach, hfile, hwanted⟩ := (ih hdots).1 h
          refine ⟨hheight, reaches_cons.2 ⟨canList_of_mem_shown hshown, Ne.symm ha, ?_, hreach⟩, hfile, hwanted⟩
          exact isExcluded_eq_false_iff.1 hex
        · simp at hnil
      · rintro ⟨hheight, hreach, hfile, hwanted⟩
        obtain ⟨-, -, hkept, hrest⟩ := reaches_cons.1 hreach
        refine ⟨hreach.start, hreach.mem_shown, Or.inl ⟨isDir_of_canList hrest.listed, ?_, ?_⟩⟩
        · exact isExcluded_eq_false_iff.2 hkept
        · exact (ih hdots).2 ⟨hheight, hrest, hfile, hwanted⟩

/-! ## When there is an answer -/

/-- A directory that is there gives the names that it shows. -/
theorem namesIn_eq (h : d.isDir dir = true) : namesIn d dir = .ok (d.shown dir) := by
  obtain ⟨node, hnode, hdir⟩ := (Option.any_eq_true _ _).1 h
  cases node with
  | file bytes => cases hdir
  | lockedFile => cases hdir
  | directory listable enterable =>
    cases listable with
    | true =>
      obtain ⟨names, hlist⟩ := canList_iff.2 ⟨enterable, hnode⟩
      rw [namesIn, hlist, shown_of_list hlist]
    | false =>
      obtain ⟨r, hopen⟩ := find?_eq_some_iff.1 hnode
      have hlist : d.list dir = .error (.denied dir) := by
        unfold Disk.list
        rw [hopen]
        rfl
      rw [namesIn, shown, hlist]
      rfl

section Visit

variable {next : Path → Except ReadFault (List Path)} {fault : ReadFault}

/-- Where a name can be told, a directory that is not left out is searched and a wanted file is given. -/
theorem visit_of_ask (h : d.ask (dir.child n) = .ok (d.find? (dir.child n))) : visit d o next dir n =
    if d.isDir (dir.child n) then if isExcluded o n then .ok [] else next (dir.child n)
    else .ok (if d.isFile (dir.child n) && isWanted o (dir.child n) then [dir.child n] else []) := by
  dsimp only [visit]
  rw [askDir_of_ask h, askFile_of_ask h]
  show (if d.isDir (dir.child n) = true then _ else _) = _
  split
  · rfl
  · show (if (d.isFile (dir.child n) && isWanted o (dir.child n)) = true then _ else _) = _
    split <;> rfl

theorem visit_of_refused (h : d.ask (dir.child n) = .error fault) : visit d o next dir n = .error fault := by
  dsimp only [visit, askDir]
  rw [h]
  rfl

end Visit

/-- The search below a directory goes through the names that it shows. -/
theorem below_succ (hdir : d.isDir dir = true) (hdeep : isTooDeep o depth = false) :
    below d o (height + 1) depth dir =
      ((d.shown dir).mapM (visit d o (below d o height (depth + 1)) dir)).map List.flatten := by
  unfold below
  rw [hdeep, namesIn_eq hdir]
  rfl

theorem below_succ_of_isTooDeep (hdeep : isTooDeep o depth = true) : below d o (height + 1) depth dir = .ok [] := by
  unfold below
  rw [hdeep]
  rfl

/-- Where everything in the directories that are reached can be told, the search gives an answer. -/
theorem below_eq (hnamed : d.IsNamed) (hdir : d.isDir dir = true)
    (htell : ∀ dirs, Reaches d o depth dir dirs → d.CanTell (dir.descend dirs)) :
    below d o height depth dir = .ok (filesBelow d o height depth dir) := by
  induction height generalizing depth dir with
  | zero => rfl
  | succ height ih =>
    cases hdeep : isTooDeep o depth with
    | true => rw [below_succ_of_isTooDeep hdeep, filesBelow, hdeep]; rfl
    | false =>
      have hvisit : ∀ n ∈ d.shown dir, visit d o (below d o height (depth + 1)) dir n =
          .ok (filesAt d o (filesBelow d o height (depth + 1)) dir n) := by
        intro n hn
        have hlist := canList_of_mem_shown hn
        have hhere : d.CanTell dir := by simpa using htell [] (reaches_nil.2 ⟨hlist, hdeep⟩)
        rw [visit_of_ask (ask_child hnamed hn hhere), filesAt]
        split
        · rename_i hchild
          cases hex : isExcluded o n with
          | true => rfl
          | false =>
            refine ih hchild fun dirs hreach => ?_
            rw [← Path.descend_cons]
            exact htell (n :: dirs) (reaches_cons.2
              ⟨hlist, (isName_of_mem_shown hnamed hn).1, isExcluded_eq_false_iff.1 hex, hreach⟩)
        · rfl
      rw [below_succ hdir hdeep, mapM_eq_ok _ hvisit, filesBelow, hdeep, List.flatMap_def]
      rfl

/-- Where something cannot be told, the search gives none. -/
theorem below_ne_ok (hnamed : d.IsNamed) (hreach : Reaches d o depth dir dirs) (hheight : dirs.length < height)
    (htell : ¬ d.CanTell (dir.descend dirs)) (found : List Path) : below d o height depth dir ≠ .ok found := by
  induction dirs generalizing height depth dir found with
  | nil =>
    obtain ⟨height, rfl⟩ := Nat.exists_eq_succ_of_ne_zero (Nat.ne_of_gt hheight)
    obtain ⟨hlist, hdeep⟩ := reaches_nil.1 hreach
    rw [Path.descend_nil] at htell
    intro h
    rw [below_succ (isDir_of_canList hlist) hdeep] at h
    obtain ⟨parts, hparts, -⟩ := map_eq_ok.1 h
    obtain ⟨n, hn⟩ := List.exists_mem_of_ne_nil _ (not_or.1 htell).1
    obtain ⟨part, -, hpart⟩ := exists_ok_of_mapM hparts hn
    rw [visit_of_refused (ask_child_of_not_canTell hnamed hn htell)] at hpart
    cases hpart
  | cons a dirs ih =>
    obtain ⟨height, rfl⟩ := Nat.exists_eq_succ_of_ne_zero (Nat.ne_zero_of_lt hheight)
    obtain ⟨hlist, -, hkept, hrest⟩ := reaches_cons.1 hreach
    intro h
    rw [below_succ (isDir_of_canList hlist) hreach.start] at h
    obtain ⟨parts, hparts, -⟩ := map_eq_ok.1 h
    obtain ⟨part, -, hpart⟩ := exists_ok_of_mapM hparts hreach.mem_shown
    -- what is shown can be told here, or this name is refused already
    by_cases hhere : d.CanTell dir
    · rw [visit_of_ask (ask_child hnamed hreach.mem_shown hhere), isDir_of_canList hrest.listed,
        isExcluded_eq_false_iff.2 hkept] at hpart
      exact ih hrest (Nat.lt_of_succ_lt_succ hheight) (Path.descend_cons dir a dirs ▸ htell) part hpart
    · rw [visit_of_refused (ask_child_of_not_canTell hnamed hreach.mem_shown hhere)] at hpart
      cases hpart

/-- A fault of the search is that of a name in a directory that is reached and where names cannot be told. -/
theorem exists_of_below_eq_error {fault : ReadFault} (hnamed : d.IsNamed) (hdir : d.isDir dir = true)
    (h : below d o height depth dir = .error fault) : ∃ dirs n, Reaches d o depth dir dirs ∧
      ¬ d.CanTell (dir.descend dirs) ∧ n ∈ d.shown (dir.descend dirs) ∧
      fault = .denied (dir.descend (dirs ++ [n])) := by
  induction height generalizing depth dir with
  | zero => cases h
  | succ height ih =>
    cases hdeep : isTooDeep o depth with
    | true =>
      rw [below_succ_of_isTooDeep hdeep] at h
      cases h
    | false =>
      rw [below_succ hdir hdeep] at h
      obtain ⟨n, hn, hvisit⟩ := exists_of_mapM_eq_error (map_eq_error.1 h)
      have hlist := canList_of_mem_shown hn
      by_cases hhere : d.CanTell dir
      · rw [visit_of_ask (ask_child hnamed hn hhere)] at hvisit
        split at hvisit
        · rename_i hchild
          split at hvisit
          · cases hvisit
          · rename_i hex
            obtain ⟨dirs, m, hreach, htell, hm, hfault⟩ := ih hchild hvisit
            rw [← Path.descend_cons] at htell hm hfault
            exact ⟨n :: dirs, m, reaches_cons.2 ⟨hlist, (isName_of_mem_shown hnamed hn).1,
              isExcluded_eq_false_iff.1 (by simpa using hex), hreach⟩, htell, hm, hfault⟩
        · cases hvisit
      · rw [visit_of_refused (ask_child_of_not_canTell hnamed hn hhere)] at hvisit
        obtain rfl := Except.error.inj hvisit
        refine ⟨[], n, reaches_nil.2 ⟨hlist, hdeep⟩, ?_, ?_, rfl⟩
        · rwa [Path.descend_nil]
        · rwa [Path.descend_nil]

/-! ## What is sought -/

theorem le_foldl_max (es : List (Route × Node)) (k : Nat) :
    k ≤ es.foldl (fun n e => max n e.1.length) k ∧
      ∀ e ∈ es, e.1.length ≤ es.foldl (fun n e => max n e.1.length) k := by
  induction es generalizing k with
  | nil => simp
  | cons e es ih =>
    obtain ⟨hk, hes⟩ := ih (max k e.1.length)
    refine ⟨Nat.le_trans (Nat.le_max_left _ _) hk, fun e' he' => ?_⟩
    rcases List.mem_cons.1 he' with rfl | he'
    · exact Nat.le_trans (Nat.le_max_right _ _) hk
    · exact hes e' he'

/-- The search goes down far enough to reach every node below its root. -/
theorem length_lt_height {node : Node} (hdots : ['.', '.'] ∉ ns) (hroot : d.CanList root)
    (h : d.find? (root.descend ns) = some node) : ns.length < Discovery.height d := by
  obtain ⟨enterable, hnode⟩ := canList_iff.1 hroot
  obtain ⟨r, hopen⟩ := find?_eq_some_iff.1 hnode
  obtain ⟨e, he, hroute⟩ := exists_entry_of_node? (node?_of_find?_descend hdots (open?_eq_ok_iff.1 hopen).2.1 h)
  have hle := (le_foldl_max d.entries 0).2 e he
  rw [hroute, List.length_append] at hle
  rw [Discovery.height]
  omega

/-- A directory is reached when the way down to it is open, it can be listed itself, and no more directories stand in
between than the depth allows. -/
structure IsReached (d : Disk) (o : Options) (root : Path) (dirs : List Text) : Prop where
  below : ['.', '.'] ∉ dirs
  way : IsOpenWay d o root dirs
  inDepth : ∀ limit, o.maxDepth = some limit → 0 ≤ limit ∧ (dirs.length : Int) ≤ limit

/-- A file is sought when its directory is reached, and it is regular and has a wanted ending. -/
structure IsSought (d : Disk) (o : Options) (root : Path) (dirs : List Text) (name : Text) : Prop extends
    IsReached d o root dirs where
  named : name ≠ ['.', '.']
  isFile : d.isFile (root.descend (dirs ++ [name])) = true
  wanted : Text.lower (root.descend (dirs ++ [name])).suffix ∈ o.extensions

/-- The names below the root tell a path that is sought. -/
theorem exists_isSought_iff : (∃ dirs' name', IsSought d o root dirs' name' ∧
    root.descend (dirs ++ [name]) = root.descend (dirs' ++ [name'])) ↔ IsSought d o root dirs name := by
  constructor
  · rintro ⟨dirs', name', h, heq⟩
    obtain ⟨rfl, hlast⟩ := List.append_inj' (Path.descend_inj.1 heq) rfl
    obtain ⟨rfl, -⟩ := List.cons.inj hlast
    exact h
  · exact fun h => ⟨dirs, name, h, rfl⟩

/-- The search reaches from its root what is reached. -/
theorem reaches_iff_isReached (hroot : d.CanList root) : Reaches d o 0 root dirs ↔ IsReached d o root dirs := by
  have hdepth : isTooDeep o (0 + dirs.length) = false ↔
      ∀ limit, o.maxDepth = some limit → 0 ≤ limit ∧ (dirs.length : Int) ≤ limit := by
    rw [Nat.zero_add, isTooDeep_eq_false_iff]
    exact forall₂_congr fun limit _ => by omega
  exact ⟨fun h => ⟨h.below, h.way, hdepth.1 h.inDepth⟩, fun h => ⟨hroot, h.below, h.way, hdepth.2 h.inDepth⟩⟩

/-- The levels of the search do not end before a directory that is reached. -/
theorem IsReached.length_lt_height (h : IsReached d o root dirs) (hroot : d.CanList root) :
    dirs.length < Discovery.height d := by
  have hlist : d.CanList (root.descend dirs) := by
    rcases List.eq_nil_or_concat dirs with rfl | ⟨front, n, rfl⟩
    · rwa [Path.descend_nil]
    · rw [List.concat_eq_append] at h ⊢
      exact (h.way front n (List.prefix_refl _)).1
  obtain ⟨enterable, hnode⟩ := canList_iff.1 hlist
  exact Discovery.length_lt_height h.below hroot hnode

/-- From a root that can be listed, what is sought is yielded and nothing else. -/
theorem mem_filesBelow_iff (hnamed : d.IsNamed) (hroot : d.CanList root) :
    f ∈ filesBelow d o (Discovery.height d) 0 root ↔
      ∃ dirs name, IsSought d o root dirs name ∧ f = root.descend (dirs ++ [name]) := by
  constructor
  · intro hf
    obtain ⟨ns, hne, rfl, hns⟩ := exists_descend_of_mem hf
    have hdots : ∀ n ∈ ns, n ≠ ['.', '.'] := by
      intro n hn
      obtain ⟨p, hshown⟩ := hns n hn
      exact (isName_of_mem_shown hnamed hshown).1
    obtain ⟨dirs, name, rfl⟩ : ∃ dirs name, ns = dirs ++ [name] :=
      ⟨ns.dropLast, ns.getLast hne, (List.dropLast_append_getLast hne).symm⟩
    have hname : name ≠ ['.', '.'] := hdots name (by simp)
    have hdirs : ['.', '.'] ∉ dirs := fun hmem => hdots _ (by simp [hmem]) rfl
    obtain ⟨-, hreach, hfile, hwanted⟩ := (descend_mem_iff hname hdirs).1 hf
    exact ⟨dirs, name, ⟨(reaches_iff_isReached hroot).1 hreach, hname, hfile, List.contains_iff_mem.1 hwanted⟩, rfl⟩
  · rintro ⟨dirs, name, h, rfl⟩
    refine (descend_mem_iff h.named h.below).2 ⟨h.length_lt_height hroot, ?_, h.isFile, ?_⟩
    · exact (reaches_iff_isReached hroot).2 h.toIsReached
    · exact List.contains_iff_mem.2 h.wanted

/-- A directory whose name begins that of a file, one directory inside another, a locked one and one that is left out,
where asking about what is refused is a fault. -/
def sampleDisk : Disk :=
  [("a-b.scss", Node.file []), ("a/x.SCSS", .file []), ("b/c/y.scss", .file []), ("locked", .lockedDir),
    ("locked/z.scss", .file []), ("old.egg-info/w.scss", .file [])].foldl
      (fun d e => d.insert (Path.ofText ("/ws/" ++ e.1).toList).names e.2)
      { Disk.empty ⟨.root, []⟩ ⟨.root, []⟩ with platform := ⟨true, true⟩ }

/-- The same with a directory that shows a file but cannot be gone through. -/
def barredDisk : Disk :=
  (sampleDisk.insert ["ws".toList, "c".toList] (.directory true false)).insert
    ["ws".toList, "c".toList, "v.scss".toList] (.file [])

def sampleOptions : Options := ⟨styleExtensions, ["*.egg-info".toList], some 1⟩

def sampleRoot : Path := ⟨.root, ["ws".toList]⟩

end Discovery

end SassModules
