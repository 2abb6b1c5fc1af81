import SassModules.Graph.Export
import SassModules.Proofs.Ordered

/-!
# Graphs as sets of additions

A graph is built by additions, one after the other (`ModuleGraph.ofAdditions`). What is in it depends only on which
additions there are (`mem_nodes_ofAdditions` and its siblings), and each of its parts is listed in order, so the graph
itself depends only on the set of its additions (`Ordered.ext`).

The lists compare labels as texts, where a missing label counts as the empty one (`Edge.byLabelText`). As long as no two
edges differ just in this, a list of edges has a single sorted arrangement, in whatever order its elements come
(`IsOnlySorting`); this is what makes the views of a graph well defined (`views_determined_by_additions`).
-/

namespace SassModules

/-! ## Sorted arrangements -/

section Sorting

variable {α : Type} {order : α → α → Ordering} {l : List α}

/-- The list is sorted, and no other arrangement of its elements is. -/
structure IsOnlySorting (order : α → α → Ordering) (l : List α) : Prop where
  sorted : l.Pairwise (order · · ≠ .gt)
  unique : ∀ l', l'.Perm l → l'.Pairwise (order · · ≠ .gt) → l' = l

theorem ne_of_order_lt [Std.OrientedCmp order] {a b : α} (h : order a b = .lt) : a ≠ b := by
  rintro rfl
  exact absurd (Std.ReflCmp.compare_self.symm.trans h) nofun

theorem nodup_of_increasing [Std.OrientedCmp order] (h : l.Pairwise (order · · = .lt)) : l.Nodup :=
  h.imp ne_of_order_lt

/-- Two elements of a strictly increasing list that do not come before each other are equal. -/
theorem eq_of_mem_increasing [Std.OrientedCmp order] (h : l.Pairwise (order · · = .lt)) {a b : α} (ha : a ∈ l)
    (hb : b ∈ l) (hab : order a b ≠ .gt) (hba : order b a ≠ .gt) : a = b := by
  by_contra hne
  have hapart : l.Pairwise fun c d => order c d = .lt ∨ order d c = .lt := h.imp Or.inl
  have hsymm : Std.Symm fun c d => order c d = .lt ∨ order d c = .lt := ⟨fun _ _ => Or.symm⟩
  rcases hapart.forall ha hb hne with hlt | hlt
  · exact hba (Std.OrientedCmp.gt_of_lt hlt)
  · exact hab (Std.OrientedCmp.gt_of_lt hlt)

/-- A strictly increasing list is the only sorted arrangement of its elements. -/
theorem isOnlySorting_of_increasing [Std.OrientedCmp order] (h : l.Pairwise (order · · = .lt)) :
    IsOnlySorting order l where
  sorted := h.imp fun hlt => by rw [hlt]; exact fun hgt => by cases hgt
  unique := by
    intro l' hperm hsorted
    refine List.Perm.eq_of_pairwise (fun a b ha hb => ?_) hsorted
      (h.imp fun hlt => by rw [hlt]; exact fun hgt => by cases hgt) hperm
    exact eq_of_mem_increasing h (hperm.mem_iff.1 ha) hb

/-- Strictly increasing lists with the same elements are equal. -/
theorem eq_of_increasing [Std.OrientedCmp order] {l' : List α} (h : l.Pairwise (order · · = .lt))
    (h' : l'.Pairwise (order · · = .lt)) (hmem : ∀ a, a ∈ l ↔ a ∈ l') : l = l' := by
  have hperm : l.Perm l' :=
    (List.perm_ext_iff_of_nodup (nodup_of_increasing h) (nodup_of_increasing h')).2 hmem
  exact (isOnlySorting_of_increasing h').unique l hperm (isOnlySorting_of_increasing h).sorted

end Sorting

/-! ## The order of listed edges -/

namespace Edge

/-- Edges by source, target, kind and the text of the label; a missing label counts as the empty one. -/
def byLabelText (e f : Edge) : Ordering :=
  (compare e.source f.source).then <| (compare e.target f.target).then <|
    (compare e.kind.text f.kind.text).then <| compare (e.label.getD []) (f.label.getD [])

instance : Std.TransCmp byLabelText :=
  inferInstanceAs (Std.TransCmp (compareLex (compareOn source) (compareLex (compareOn target)
    (compareLex (compareOn fun e => e.kind.text) (compareOn fun e => e.label.getD [])))))

/-- The two edges differ in nothing but that the first has no label and the second an empty one. -/
structure IsBlankTwin (e f : Edge) : Prop where
  source : e.source = f.source
  target : e.target = f.target
  kind : e.kind = f.kind
  left : e.label = none
  right : f.label = some []

theorem order_eq_then (e f : Edge) :
    order e f = (byLabelText e f).then (compare e.label.isSome.toNat f.label.isSome.toNat) := by
  simp only [order, byLabelText, Ordering.then_assoc]

/-- Of two labels with the same text, the one that is missing comes first. -/
theorem label_of_isSome_lt {a b : Option Text} (htext : a.getD [] = b.getD [])
    (hsome : compare a.isSome.toNat b.isSome.toNat = .lt) : a = none ∧ b = some [] := by
  rw [Nat.compare_eq_lt] at hsome
  cases a <;> cases b <;> simp_all

/-- Only blank twins are told apart by more than the text of the label. -/
theorem byLabelText_of_order {e f : Edge} (h : order e f = .lt) (htwin : ¬ IsBlankTwin e f) : byLabelText e f = .lt := by
  rw [order_eq_then, Ordering.then_eq_lt] at h
  rcases h with h | ⟨heq, hsome⟩
  · exact h
  · simp only [byLabelText, Ordering.then_eq_eq, Std.LawfulEqOrd.compare_eq_iff_eq] at heq
    obtain ⟨hsource, htarget, hkind, htext⟩ := heq
    obtain ⟨hleft, hright⟩ := label_of_isSome_lt htext hsome
    exact absurd ⟨hsource, htarget, kindText_injective hkind, hleft, hright⟩ htwin

end Edge

/-! ## Additions -/

/-- One addition to a graph. -/
inductive Addition where
  | node (p : Path)
  | edge (e : Edge)
  | missing (m : Mention)
  | builtin (m : Mention)
deriving DecidableEq

/-- The modules that an addition is about. -/
def Addition.modules : Addition → List Path
  | .node p => [p]
  | .edge e => [e.source, e.target]
  | .missing m => [m.source]
  | .builtin m => [m.source]

namespace ModuleGraph

/-- The graph with an addition. -/
def add (g : ModuleGraph) : Addition → ModuleGraph
  | .node p => g.addNode p
  | .edge e => g.addEdge e
  | .missing m => g.addMissing m
  | .builtin m => g.addBuiltin m

/-- The graph that additions build, one after the other. -/
def ofAdditions (as : List Addition) : ModuleGraph := as.foldl add empty

section Parts

variable {g h : ModuleGraph} {a : Addition} {as bs : List Addition} {p : Path} {e : Edge} {m : Mention}

theorem Ordered.add (h : g.Ordered) (a : Addition) : (g.add a).Ordered := by
  cases a with
  | node p => exact h.addNode p
  | edge e => exact h.addEdge e
  | missing m => exact h.addMissing m
  | builtin m => exact h.addBuiltin m

theorem ordered_ofAdditions (as : List Addition) : (ofAdditions as).Ordered :=
  List.foldlRecOn _ _ ordered_empty fun _ hg a _ => hg.add a

/-- What one addition adds to a part holds of the part after all of them when one of them adds it. -/
theorem foldl_add_iff {P : ModuleGraph → Prop} {Q : Addition → Prop} (h : ∀ g a, P (g.add a) ↔ P g ∨ Q a) :
    ∀ (as : List Addition) (g : ModuleGraph), P (as.foldl add g) ↔ P g ∨ ∃ a ∈ as, Q a
  | [], g => by simp
  | a :: as, g => by
    rw [List.foldl_cons, foldl_add_iff h as, h]
    simp only [List.exists_mem_cons_iff, or_assoc]

theorem mem_nodes_add : p ∈ (g.add a).nodes ↔ p ∈ g.nodes ∨ p ∈ a.modules := by
  cases a <;> simp only [ModuleGraph.add, Addition.modules, mem_nodes_addNode, mem_nodes_addEdge, mem_nodes_addMissing,
    mem_nodes_addBuiltin, List.mem_cons, List.not_mem_nil, or_false] <;> tauto

theorem mem_edges_add : e ∈ (g.add a).edges ↔ e ∈ g.edges ∨ a = .edge e := by
  cases a <;> simp [ModuleGraph.add, or_comm, eq_comm]

theorem mem_missing_add : m ∈ (g.add a).missing ↔ m ∈ g.missing ∨ a = .missing m := by
  cases a <;> simp [ModuleGraph.add, or_comm, eq_comm]

theorem mem_builtins_add : m ∈ (g.add a).builtins ↔ m ∈ g.builtins ∨ a = .builtin m := by
  cases a <;> simp [ModuleGraph.add, or_comm, eq_comm]

@[simp] theorem mem_nodes_ofAdditions : p ∈ (ofAdditions as).nodes ↔ ∃ a ∈ as, p ∈ a.modules := by
  rw [ofAdditions, foldl_add_iff (P := fun g => p ∈ g.nodes) fun _ _ => mem_nodes_add]
  simp [empty]

@[simp] theorem mem_edges_ofAdditions : e ∈ (ofAdditions as).edges ↔ .edge e ∈ as := by
  rw [ofAdditions, foldl_add_iff (P := fun g => e ∈ g.edges) fun _ _ => mem_edges_add]
  simp [empty]

@[simp] theorem mem_missing_ofAdditions : m ∈ (ofAdditions as).missing ↔ .missing m ∈ as := by
  rw [ofAdditions, foldl_add_iff (P := fun g => m ∈ g.missing) fun _ _ => mem_missing_add]
  simp [empty]

@[simp] theorem mem_builtins_ofAdditions : m ∈ (ofAdditions as).builtins ↔ .builtin m ∈ as := by
  rw [ofAdditions, foldl_add_iff (P := fun g => m ∈ g.builtins) fun _ _ => mem_builtins_add]
  simp [empty]

/-- Ordered graphs with the same elements are equal. -/
theorem Ordered.ext (hg : g.Ordered) (hh : h.Ordered) (hnodes : ∀ p, p ∈ g.nodes ↔ p ∈ h.nodes)
    (hedges : ∀ e, e ∈ g.edges ↔ e ∈ h.edges) (hmissing : ∀ m, m ∈ g.missing ↔ m ∈ h.missing)
    (hbuiltins : ∀ m, m ∈ g.builtins ↔ m ∈ h.builtins) : g = h := by
  obtain ⟨nodes, edges, missing, builtins⟩ := g
  obtain ⟨nodes', edges', missing', builtins'⟩ := h
  rw [ModuleGraph.mk.injEq]
  exact ⟨eq_of_increasing hg.nodes hh.nodes hnodes, eq_of_increasing hg.edges hh.edges hedges,
    eq_of_increasing hg.missing hh.missing hmissing, eq_of_increasing hg.builtins hh.builtins hbuiltins⟩

/-- Order and repetition of the additions do not matter. -/
theorem ofAdditions_congr (same : ∀ a, a ∈ as ↔ a ∈ bs) : ofAdditions as = ofAdditions bs := by
  refine (ordered_ofAdditions as).ext (ordered_ofAdditions bs) ?_ ?_ ?_ ?_ <;> intro x <;>
    simp only [mem_nodes_ofAdditions, mem_edges_ofAdditions, mem_missing_ofAdditions, mem_builtins_ofAdditions, same]

end Parts

/-! ## The modules of a graph -/

/-- The modules of all edges and mentions are modules of the graph. -/
structure HasModules (g : ModuleGraph) : Prop where
  source : ∀ e ∈ g.edges, e.source ∈ g.nodes
  target : ∀ e ∈ g.edges, e.target ∈ g.nodes
  missing : ∀ m ∈ g.missing, m.source ∈ g.nodes
  builtins : ∀ m ∈ g.builtins, m.source ∈ g.nodes

theorem hasModules_ofAdditions (as : List Addition) : (ofAdditions as).HasModules where
  source e he := mem_nodes_ofAdditions.2 ⟨_, mem_edges_ofAdditions.1 he, by simp [Addition.modules]⟩
  target e he := mem_nodes_ofAdditions.2 ⟨_, mem_edges_ofAdditions.1 he, by simp [Addition.modules]⟩
  missing m hm := mem_nodes_ofAdditions.2 ⟨_, mem_missing_ofAdditions.1 hm, by simp [Addition.modules]⟩
  builtins m hm := mem_nodes_ofAdditions.2 ⟨_, mem_builtins_ofAdditions.1 hm, by simp [Addition.modules]⟩

theorem mem_roots {g : ModuleGraph} {p : Path} : p ∈ g.roots ↔ p ∈ g.nodes ∧ ∀ e ∈ g.edges, e.target ≠ p := by
  simp [roots]

theorem mem_edgesOf {g : ModuleGraph} {p : Path} {e : Edge} : e ∈ g.edgesOf p ↔ e ∈ g.edges ∧ e.source = p := by
  simp [edgesOf]

/-! ## Views -/

/-- The module paths of one source, out of an ordered list of mentions. -/
theorem increasing_modulePaths {ms : List Mention} (h : ms.Pairwise (Mention.order · · = .lt)) (p : Path) :
    ((ms.filter (·.source == p)).map (·.modulePath)).Pairwise (compare · · = .lt) := by
  rw [List.pairwise_map]
  refine (h.filter (·.source == p)).imp_of_mem fun {m n} hm hn hlt => ?_
  have hsource : m.source = n.source := by
    rw [beq_iff_eq.1 (List.mem_filter.1 hm).2, beq_iff_eq.1 (List.mem_filter.1 hn).2]
  rw [Mention.order, hsource, Std.ReflOrd.compare_self] at hlt
  exact hlt

/-- Every list that a graph shows is the only sorted arrangement of what is in it. -/
structure ListsInOrder (g : ModuleGraph) : Prop where
  nodes : IsOnlySorting compare g.nodes
  roots : IsOnlySorting compare g.roots
  edges : IsOnlySorting Edge.byLabelText g.edges
  edgesOf : ∀ p, IsOnlySorting Edge.byLabelText (g.edgesOf p)
  missing : IsOnlySorting Mention.order g.missing
  missingOf : ∀ p, IsOnlySorting compare (g.missingOf p)
  builtins : IsOnlySorting Mention.order g.builtins
  builtinsOf : ∀ p, IsOnlySorting compare (g.builtinsOf p)

theorem Ordered.listsInOrder {g : ModuleGraph} (h : g.Ordered)
    (htwin : ∀ e ∈ g.edges, ∀ f ∈ g.edges, ¬ Edge.IsBlankTwin e f) : g.ListsInOrder := by
  have hedges : g.edges.Pairwise (Edge.byLabelText · · = .lt) :=
    h.edges.imp_of_mem fun he hf hlt => Edge.byLabelText_of_order hlt (htwin _ he _ hf)
  exact
    { nodes := isOnlySorting_of_increasing h.nodes
      roots := isOnlySorting_of_increasing (h.nodes.filter _)
      edges := isOnlySorting_of_increasing hedges
      edgesOf := fun p => isOnlySorting_of_increasing (hedges.filter _)
      missing := isOnlySorting_of_increasing h.missing
      missingOf := fun p => isOnlySorting_of_increasing (increasing_modulePaths h.missing p)
      builtins := isOnlySorting_of_increasing h.builtins
      builtinsOf := fun p => isOnlySorting_of_increasing (increasing_modulePaths h.builtins p) }

/-- The two graphs look the same in every list, in the summary, drawn as trees and exported. -/
structure LooksLike (g h : ModuleGraph) : Prop where
  nodes : g.nodes = h.nodes
  roots : g.roots = h.roots
  edgesOf : ∀ p, g.edgesOf p = h.edgesOf p
  edges : g.edges = h.edges
  missing : g.missing = h.missing
  builtins : g.builtins = h.builtins
  summary : g.summary = h.summary
  drawing : ∀ v s l, g.drawing v s l = h.drawing v s l
  exported : ∀ v l indent, (g.toJson v l).render indent = (h.toJson v l).render indent

theorem LooksLike.refl (g : ModuleGraph) : g.LooksLike g :=
  ⟨rfl, rfl, fun _ => rfl, rfl, rfl, rfl, rfl, fun _ _ _ => rfl, fun _ _ _ => rfl⟩

/-- **A graph depends only on the set of its additions.** Two sequences of the same additions, in any order and with any
repetitions, give graphs that look the same. When no two of the edges are blank twins, each list of such a graph is the
only sorted arrangement of its elements, so that it does not depend on the order in which these are kept either. The
modules of edges and mentions are modules of the graph, and its roots are the modules that no edge leads to. -/
theorem views_determined_by_additions {as bs : List Addition} (same : ∀ a, a ∈ as ↔ a ∈ bs)
    (clear : ∀ e f, .edge e ∈ as → .edge f ∈ as → ¬ Edge.IsBlankTwin e f) :
    (ofAdditions as).LooksLike (ofAdditions bs) ∧ (ofAdditions as).ListsInOrder ∧ (ofAdditions as).HasModules ∧
      ∀ p, p ∈ (ofAdditions as).roots ↔
        p ∈ (ofAdditions as).nodes ∧ ∀ e ∈ (ofAdditions as).edges, e.target ≠ p := by
  refine ⟨?_, ?_, hasModules_ofAdditions as, fun p => mem_roots⟩
  · rw [ofAdditions_congr same]
    exact .refl _
  · refine (ordered_ofAdditions as).listsInOrder fun e he f hf => ?_
    exact clear e f (mem_edges_ofAdditions.1 he) (mem_edges_ofAdditions.1 hf)

/-! ## A graph with a cycle -/

namespace Sample

def main : Path := ⟨.root, ["main.scss".toList]⟩

def theme : Path := ⟨.root, ["theme.scss".toList]⟩

def tools : Path := ⟨.root, ["tools.scss".toList]⟩

/-- A module that loads two others, which forward each other. -/
def additions : List Addition :=
  [.edge ⟨main, theme, .use, some "t".toList⟩, .edge ⟨main, tools, .forward, some "tl-".toList⟩,
   .edge ⟨main, tools, .forward, none⟩, .edge ⟨theme, tools, .forward, none⟩, .edge ⟨tools, theme, .forward, none⟩,
   .missing ⟨main, "./gone".toList⟩, .builtin ⟨main, "sass:math".toList⟩]

/-- The same additions in another order, one of them twice. -/
def shuffled : List Addition := additions.reverse ++ [.edge ⟨theme, tools, .forward, none⟩]

/-- Paths seen from the root. -/
def viewpoint : Viewpoint := .of (.empty ⟨.root, []⟩ ⟨.root, []⟩) ⟨.root, []⟩ none

theorem mem_shuffled (a : Addition) : a ∈ additions ↔ a ∈ shuffled := by
  simp only [shuffled, List.mem_append, List.mem_reverse, List.mem_singleton]
  constructor
  · exact Or.inl
  · rintro (h | rfl)
    · exact h
    · decide

theorem not_isBlankTwin (e f : Edge) (hf : .edge f ∈ additions) : ¬ Edge.IsBlankTwin e f := by
  intro htwin
  have hlabels : ∀ a ∈ additions, ∀ f, a = .edge f → f.label ≠ some [] := by
    simp [additions]
  exact hlabels _ hf f rfl htwin.right

end Sample

theorem views_determined_by_additions_sample :
    (∀ a, a ∈ Sample.additions ↔ a ∈ Sample.shuffled) ∧
    (∀ e f, .edge e ∈ Sample.additions → .edge f ∈ Sample.additions → ¬ Edge.IsBlankTwin e f) ∧
    (ofAdditions Sample.additions).LooksLike (ofAdditions Sample.shuffled) ∧
    (ofAdditions Sample.additions).ListsInOrder ∧ (ofAdditions Sample.additions).HasModules ∧
    ∀ p, p ∈ (ofAdditions Sample.additions).roots ↔ p ∈ (ofAdditions Sample.additions).nodes ∧
      ∀ e ∈ (ofAdditions Sample.additions).edges, e.target ≠ p := by
  have hclear : ∀ e f, .edge e ∈ Sample.additions → .edge f ∈ Sample.additions → ¬ Edge.IsBlankTwin e f :=
    fun e f _ hf => Sample.not_isBlankTwin e f hf
  exact ⟨Sample.mem_shuffled, hclear, views_determined_by_additions Sample.mem_shuffled hclear⟩

end ModuleGraph

end SassModules
