import SassModules.Proofs.Depth

/-!
# What directories show

A directory that can be listed shows the names of the nodes below it, whatever order they were put on the disk
(`Disk.mem_shown_iff`), in strictly increasing order (`Disk.pairwise_shown`). That order carries over to whole paths, since
two paths below different names of one directory compare as these names do (`Path.compare_descend`).

A directory may show its names without being open to go through. Then nothing can be told about them, and where asking
is a fault, each of them is refused (`Disk.ask_child_of_not_canTell`).
-/

namespace SassModules

/-! ## Paths below a path -/

namespace Path

variable {p : Path} {a b : Text} {ns ms : List Text}

/-- The path that names lead to from a path down. -/
def descend (p : Path) (ns : List Text) : Path := { p with names := p.names ++ ns }

@[simp] theorem descend_nil (p : Path) : p.descend [] = p := by
  rw [descend, List.append_nil]

theorem descend_cons (p : Path) (a : Text) (ns : List Text) : p.descend (a :: ns) = (p.child a).descend ns := by
  rw [descend, descend, child, List.append_assoc, List.singleton_append]

@[simp] theorem descend_inj : p.descend ns = p.descend ms ↔ ns = ms := by
  simp [descend]

/-- A common beginning does not count in a comparison. -/
theorem compare_append (l as bs : List Text) : compare (l ++ as) (l ++ bs) = compare as bs := by
  induction l with
  | nil => rfl
  | cons c l ih => rw [List.cons_append, List.cons_append, List.compare_cons_cons, Std.ReflOrd.compare_self, ih]; rfl

/-- Paths below different names of one path compare as these names do. -/
theorem compare_descend (h : compare a b = .lt) : compare (p.descend (a :: ns)) (p.descend (b :: ms)) = .lt := by
  have hnames : compare (p.names ++ a :: ns) (p.names ++ b :: ms) = .lt := by
    rw [compare_append, List.compare_cons_cons, h]
    rfl
  have hcomponents : compare (p.descend (a :: ns)).components (p.descend (b :: ms)).components = .lt := by
    unfold components descend
    split
    · exact hnames
    · rw [List.compare_cons_cons, Std.ReflOrd.compare_self]
      exact hnames
  show (compare _ _).then _ = .lt
  rw [hcomponents]
  rfl

end Path

/-! ## What a directory shows -/

namespace Disk

variable {d : Disk} {p : Path} {r r' : Route} {n : Text} {names : List Text} {node : Node}

/-- The directory can be listed. -/
def CanList (d : Disk) (p : Path) : Prop := ∃ names, d.list p = .ok names

/-- The names that a directory shows; none where it cannot be listed. -/
def shown (d : Disk) (p : Path) : List Text := (d.list p).toOption.getD []

/-- Names are walked one part after the other. -/
theorem walk_append (d : Disk) (ns ms : List Text) (r : Route) :
    d.walk r (ns ++ ms) = d.walk r ns >>= fun r' => d.walk r' ms := by
  induction ns generalizing r with
  | nil =>
    cases hr : d.node? r with
    | none =>
      have hnone : d.walk r [] = .error .absent := by simp [walk, hr]
      rw [hnone]
      cases ms with
      | nil => exact hnone
      | cons m ms => simp [walk, hr]; rfl
    | some node => simp [walk, hr]; rfl
  | cons n ns ih =>
    cases hr : d.node? r with
    | none => simp only [List.cons_append, walk, hr]; rfl
    | some node =>
      simp only [List.cons_append, walk, hr]
      -- an obstacle at the first name is the same for both sides; past it, the induction hypothesis
      split
      · rfl
      split
      · rfl
      split
      · exact ih _
      split
      · rfl
      · exact ih _

theorem namesFromRoot_descend (d : Disk) (p : Path) (ns : List Text) :
    d.namesFromRoot (p.descend ns) = d.namesFromRoot p ++ ns := by
  unfold namesFromRoot
  show (if p.isAbsolute = true then p.names ++ ns else d.cwd.names ++ (p.names ++ ns)) = _
  split
  · rfl
  · rw [List.append_assoc]

/-- A path below another is looked up from where that one leads. -/
theorem locate_descend (d : Disk) (p : Path) (ns : List Text) :
    d.locate (p.descend ns) = d.locate p >>= fun r => d.walk r ns := by
  rw [locate, namesFromRoot_descend, walk_append]
  rfl

theorem open?_eq_ok_iff :
    d.open? p = .ok (r, node) ↔ p.hasNull = false ∧ d.locate p = .ok r ∧ d.node? r = some node := by
  unfold open?
  cases p.hasNull with
  | true => simp
  | false =>
    cases d.locate p with
    | error o => cases o <;> simp
    | ok r' =>
      simp only [Bool.false_eq_true, ↓reduceIte, Except.ok.injEq, true_and]
      cases hnode : d.node? r' with
      | none =>
        simp only [reduceCtorEq, false_iff, not_and]
        rintro rfl
        simp [hnode]
      | some node' =>
        simp only [Except.ok.injEq, Prod.mk.injEq]
        constructor
        · rintro ⟨rfl, rfl⟩
          exact ⟨rfl, hnode⟩
        · rintro ⟨rfl, h⟩
          exact ⟨rfl, Option.some.inj (hnode.symm.trans h)⟩

/-- A path leads to a node when it can be opened. -/
theorem find?_eq_some_iff : d.find? p = some node ↔ ∃ r, d.open? p = .ok (r, node) := by
  simp only [open?_eq_ok_iff]
  unfold find?
  cases p.hasNull with
  | true => simp
  | false => cases d.locate p <;> simp

/-- Where names without `..` lead to a node, it stands at the route that they make longer. -/
theorem node?_of_find?_descend {ns : List Text} (hdots : ['.', '.'] ∉ ns) (hp : d.locate p = .ok r)
    (h : d.find? (p.descend ns) = some node) : d.node? (r ++ ns) = some node := by
  obtain ⟨r', hopen⟩ := find?_eq_some_iff.1 h
  obtain ⟨-, hr', hnode⟩ := open?_eq_ok_iff.1 hopen
  rw [locate_descend, hp] at hr'
  rwa [walk_eq_append ns r hdots hr'] at hnode

theorem exists_entry_of_node? (h : d.node? r = some node) : ∃ e ∈ d.entries, e.1 = r := by
  obtain ⟨e, he, -⟩ := Option.map_eq_some_iff.1 h
  exact ⟨e, List.mem_of_find?_eq_some he, by simpa using List.find?_some he⟩

/-! ### Listing -/

theorem childName?_eq_some_iff : childName? r r' = some n ↔ r' = r ++ [n] := by
  unfold childName?
  constructor
  · intro h
    split at h
    · rename_i m hm
      obtain rfl := Option.some.inj h
      exact (List.isPrefixOf?_eq_some_iff_append_eq.1 hm).symm
    · cases h
  · rintro rfl
    rw [List.isPrefixOf?_eq_some_iff_append_eq.2 rfl]

/-- Names that are sorted without repetitions are strictly increasing. -/
theorem pairwise_sortedNames (l : List Text) :
    (l.eraseDups.mergeSort fun a b => (compare a b).isLE).Pairwise (compare · · = .lt) := by
  have hsorted : (l.eraseDups.mergeSort fun a b => (compare a b).isLE).Pairwise fun a b => (compare a b).isLE := by
    apply List.pairwise_mergeSort
    · exact fun a b c => Std.TransOrd.isLE_trans
    · intro a b
      rw [Bool.or_eq_true]
      by_cases hle : (compare a b).isLE = true
      · exact Or.inl hle
      · exact Or.inr (by rw [Std.OrientedCmp.lt_of_not_isLE hle]; rfl)
  have hnodup := (List.mergeSort_perm l.eraseDups fun a b => (compare a b).isLE).nodup_iff.2 (nodup_eraseDups l)
  refine (hsorted.and hnodup).imp ?_
  rintro a b ⟨hle, hne⟩
  cases hab : compare a b with
  | lt => rfl
  | eq => exact absurd (Std.LawfulEqOrd.eq_of_compare hab) hne
  | gt => rw [hab] at hle; cases hle

/-- A listing gives the names of the nodes directly below the directory, in strict order. -/
theorem list_eq_ok (h : d.list p = .ok names) : ∃ r enterable, d.open? p = .ok (r, .directory true enterable) ∧
    (∀ n, n ∈ names ↔ ∃ e ∈ d.entries, e.1 = r ++ [n]) ∧ names.Pairwise (compare · · = .lt) := by
  obtain ⟨⟨r, node⟩, hopen, h⟩ := bind_eq_ok.1 h
  cases node with
  | file bytes => cases h
  | lockedFile => cases h
  | directory listable enterable =>
    cases listable with
    | false => cases h
    | true =>
      obtain rfl := Except.ok.inj h
      refine ⟨r, enterable, hopen, fun n => ?_, pairwise_sortedNames _⟩
      simp only [List.mem_mergeSort, List.mem_eraseDups, List.mem_filterMap, childName?_eq_some_iff]

/-- A directory can be listed when it is there and not locked. -/
theorem canList_iff : d.CanList p ↔ ∃ enterable, d.find? p = some (.directory true enterable) := by
  constructor
  · rintro ⟨names, h⟩
    obtain ⟨r, enterable, hopen, -⟩ := list_eq_ok h
    exact ⟨enterable, find?_eq_some_iff.2 ⟨r, hopen⟩⟩
  · rintro ⟨enterable, h⟩
    obtain ⟨r, hopen⟩ := find?_eq_some_iff.1 h
    unfold CanList list
    rw [hopen]
    exact ⟨_, rfl⟩

theorem isDir_of_canList (h : d.CanList p) : d.isDir p = true := by
  obtain ⟨enterable, hnode⟩ := canList_iff.1 h
  rw [isDir, hnode]
  rfl

theorem shown_of_list (h : d.list p = .ok names) : d.shown p = names := by
  rw [shown, h]
  rfl

theorem canList_of_mem_shown (h : n ∈ d.shown p) : d.CanList p := by
  unfold shown at h
  cases hlist : d.list p with
  | ok names => exact ⟨names, hlist⟩
  | error fault =>
    rw [hlist] at h
    cases h

/-- The names that a directory shows are those of the nodes directly below it. -/
theorem mem_shown_iff {enterable : Bool} (h : d.open? p = .ok (r, .directory true enterable)) :
    n ∈ d.shown p ↔ ∃ e ∈ d.entries, e.1 = r ++ [n] := by
  obtain ⟨names, hlist⟩ := canList_iff.2 ⟨enterable, find?_eq_some_iff.2 ⟨r, h⟩⟩
  obtain ⟨r', enterable', hopen, hmem, -⟩ := list_eq_ok hlist
  obtain ⟨rfl, -⟩ := Prod.mk.inj (Except.ok.inj (h.symm.trans hopen))
  rw [shown_of_list hlist, hmem]

/-- A directory that can be listed shows each node below it. -/
theorem mem_shown (hp : d.CanList p) (hn : n ≠ ['.', '.']) (h : d.find? (p.child n) = some node) : n ∈ d.shown p := by
  obtain ⟨enterable, hnode⟩ := canList_iff.1 hp
  obtain ⟨r, hopen⟩ := find?_eq_some_iff.1 hnode
  have hchild : d.node? (r ++ [n]) = some node :=
    node?_of_find?_descend (by simpa using Ne.symm hn) (open?_eq_ok_iff.1 hopen).2.1 h
  exact (mem_shown_iff hopen).2 (exists_entry_of_node? hchild)

/-- A name that a directory shows is the name of a node. -/
theorem exists_entry_of_mem_shown (h : n ∈ d.shown p) : ∃ e ∈ d.entries, n ∈ e.1 := by
  obtain ⟨enterable, hnode⟩ := canList_iff.1 (canList_of_mem_shown h)
  obtain ⟨r, hopen⟩ := find?_eq_some_iff.1 hnode
  obtain ⟨e, he, hroute⟩ := (mem_shown_iff hopen).1 h
  exact ⟨e, he, by rw [hroute]; simp⟩

theorem pairwise_shown (d : Disk) (p : Path) : (d.shown p).Pairwise (compare · · = .lt) := by
  unfold shown
  cases hlist : d.list p with
  | error fault => exact .nil
  | ok names =>
    obtain ⟨-, -, -, -, hsorted⟩ := list_eq_ok hlist
    exact hsorted

/-! ### Asking about what a directory shows -/

/-- The nodes stand under names that a disk can hold: none is `..`, has a null character or is too long. -/
def IsNamed (d : Disk) : Prop :=
  ∀ e ∈ d.entries, ∀ n ∈ e.1, n ≠ ['.', '.'] ∧ Char.ofNat 0 ∉ n ∧ (Utf8.encode n).length ≤ maxNameBytes

/-- What stands at the names that a directory shows can be told: it shows none or can be gone through, or asking is never
a fault. -/
def CanTell (d : Disk) (p : Path) : Prop :=
  d.shown p = [] ∨ (d.find? p).any (·.isEnterable) = true ∨ d.platform.faultsOnAsking = false

theorem canTell_of_enterable (h : ∀ e ∈ d.entries, e.2.isFile = true ∨ e.2.isEnterable = true) (p : Path) :
    d.CanTell p := by
  by_cases hshown : d.shown p = []
  · exact Or.inl hshown
  obtain ⟨n, hn⟩ := List.exists_mem_of_ne_nil _ hshown
  obtain ⟨enterable, hnode⟩ := canList_iff.1 (canList_of_mem_shown hn)
  obtain ⟨r, hopen⟩ := find?_eq_some_iff.1 hnode
  obtain ⟨e, he, heq⟩ := Option.map_eq_some_iff.1 (open?_eq_ok_iff.1 hopen).2.2
  refine Or.inr (Or.inl ?_)
  rw [hnode, ← heq, Option.any_some]
  refine (h e (List.mem_of_find?_eq_some he)).resolve_left ?_
  rw [heq]
  exact Bool.false_ne_true

/-- Where there is an answer, it is the node that the path leads to. -/
theorem ask_eq_ok (h : d.platform.faultsOnAsking = false ∨
    ∀ obstacle, d.locate p = .error obstacle → (d.faultOf p obstacle).isForbidding = false) :
    d.ask p = .ok (d.find? p) := by
  unfold ask find?
  split
  · rfl
  cases hlocate : d.locate p with
  | ok r => rfl
  | error obstacle =>
    refine if_neg ?_
    rw [Bool.and_eq_true]
    rintro ⟨hasking, hforbidding⟩
    rcases h with h | h
    · rw [h] at hasking
      cases hasking
    · rw [h obstacle hlocate] at hforbidding
      cases hforbidding

theorem askDir_of_ask (h : d.ask p = .ok (d.find? p)) : d.askDir p = .ok (d.isDir p) := by
  rw [askDir, h]
  rfl

theorem askFile_of_ask (h : d.ask p = .ok (d.find? p)) : d.askFile p = .ok (d.isFile p) := by
  rw [askFile, h]
  rfl

section Child

variable (hnamed : d.IsNamed) (hn : n ∈ d.shown p)
include hnamed hn

/-- A name that a directory shows is one that a disk can hold. -/
theorem isName_of_mem_shown : n ≠ ['.', '.'] ∧ Char.ofNat 0 ∉ n ∧ (Utf8.encode n).length ≤ maxNameBytes := by
  obtain ⟨e, he, hmem⟩ := exists_entry_of_mem_shown hn
  exact hnamed e he n hmem

/-- Where the names that a directory shows can be told, each of them leads to the node that stands there. -/
theorem ask_child (htell : d.CanTell p) : d.ask (p.child n) = .ok (d.find? (p.child n)) := by
  refine ask_eq_ok ((htell.resolve_left (List.ne_nil_of_mem hn)).symm.imp_right fun henterable obstacle hlocate => ?_)
  obtain ⟨hdots, -, hlength⟩ := isName_of_mem_shown hnamed hn
  obtain ⟨enterable, hnode⟩ := canList_iff.1 (canList_of_mem_shown hn)
  obtain ⟨r, hopen⟩ := find?_eq_some_iff.1 hnode
  obtain ⟨-, hr, hnode'⟩ := open?_eq_ok_iff.1 hopen
  obtain rfl : enterable = true := by
    rw [hnode] at henterable
    exact henterable
  -- past the directory, nothing but a missing node can stop the way
  have hwalk : d.locate (p.child n) = if (d.node? (r ++ [n])).isSome then .ok (r ++ [n]) else .error .absent := by
    rw [show p.child n = p.descend [n] from rfl, locate_descend, hr]
    show d.walk r [n] = _
    simp [walk, hnode', Node.isFile, Node.isEnterable, hdots, Nat.not_lt.2 hlength]
  rw [hwalk] at hlocate
  split at hlocate
  · cases hlocate
  · obtain rfl := Except.error.inj hlocate
    rfl

/-- Where they cannot be told, each of them is refused. -/
theorem ask_child_of_not_canTell (htell : ¬ d.CanTell p) : d.ask (p.child n) = .error (.denied (p.child n)) := by
  obtain ⟨-, htell⟩ := not_or.1 htell
  obtain ⟨henterable, hasking⟩ := not_or.1 htell
  obtain ⟨-, hnull, -⟩ := isName_of_mem_shown hnamed hn
  obtain ⟨enterable, hnode⟩ := canList_iff.1 (canList_of_mem_shown hn)
  obtain ⟨r, hopen⟩ := find?_eq_some_iff.1 hnode
  obtain ⟨hpnull, hr, hnode'⟩ := open?_eq_ok_iff.1 hopen
  obtain rfl : enterable = false := by
    rw [hnode] at henterable
    simpa [Node.isEnterable] using henterable
  have hwalk : d.locate (p.child n) = .error .barred := by
    rw [show p.child n = p.descend [n] from rfl, locate_descend, hr]
    show d.walk r [n] = _
    simp [walk, hnode', Node.isFile, Node.isEnterable]
  have hchild : (p.child n).hasNull = false := by
    unfold Path.hasNull Path.child at *
    rw [List.any_append, hpnull, List.any_cons, List.any_nil, Bool.or_false, Bool.false_or,
      List.contains_eq_mem, decide_eq_false hnull]
  unfold ask
  rw [hchild, hwalk]
  simp [faultOf, ReadFault.isForbidding, hasking]

end Child

end Disk

end SassModules
