import SassModules.Graph.Basic
import Mathlib

/-!
# The parts of a graph are ordered sets

Modules, edges and mentions are each ordered by an order in which only equal elements compare equal. So inserting into a
part of a graph adds just the element (`mem_insertSorted`), and a part that is strictly increasing stays so
(`pairwise_insertSorted`). An addition to a graph is then described by what it adds to each part, and it keeps the whole
graph ordered (`ModuleGraph.Ordered`).
-/

namespace SassModules

/-! ## Inserting -/

section Inserting

variable {α : Type} {order : α → α → Ordering} {a b : α}

/-- Inserting adds the element and nothing else. -/
theorem mem_insertSorted [Std.LawfulEqCmp order] : ∀ {l : List α}, b ∈ insertSorted order a l ↔ b = a ∨ b ∈ l
  | [] => by simp [insertSorted]
  | c :: cs => by
    rw [insertSorted]
    cases h : order a c with
    | lt => simp
    | eq =>
      obtain rfl : a = c := Std.LawfulEqCmp.eq_of_compare h
      simp
    | gt =>
      simp only [List.mem_cons, mem_insertSorted (l := cs)]
      tauto

/-- A strictly increasing list stays so. -/
theorem pairwise_insertSorted [Std.TransCmp order] [Std.LawfulEqCmp order] : ∀ {l : List α},
    l.Pairwise (order · · = .lt) → (insertSorted order a l).Pairwise (order · · = .lt)
  | [], _ => List.pairwise_singleton _ a
  | c :: cs, h => by
    obtain ⟨hc, hcs⟩ := List.pairwise_cons.1 h
    rw [insertSorted]
    cases ha : order a c with
    | lt =>
      refine List.pairwise_cons.2 ⟨fun d hd => ?_, h⟩
      rcases List.mem_cons.1 hd with rfl | hd
      · exact ha
      · exact Std.TransCmp.lt_trans ha (hc d hd)
    | eq => exact h
    | gt =>
      refine List.pairwise_cons.2 ⟨fun d hd => ?_, pairwise_insertSorted hcs⟩
      rcases mem_insertSorted.1 hd with rfl | hd
      · exact Std.OrientedCmp.lt_of_gt ha
      · exact hc d hd

end Inserting

/-! ## The orders -/

theorem Anchor.slashes_injective : Function.Injective Anchor.slashes := by
  intro a b h
  cases a <;> cases b <;> first | rfl | cases h

namespace Path

/-- Components and anchor determine a path. -/
theorem eq_of_components {p q : Path} (h : p.components = q.components) (ha : p.anchor = q.anchor) : p = q := by
  obtain ⟨a, ns⟩ := p
  obtain ⟨b, ms⟩ := q
  obtain rfl : a = b := ha
  have hnames : ns = ms := by
    unfold components at h
    cases a with
    | relative => exact h
    | root => exact List.tail_eq_of_cons_eq h
    | doubleRoot => exact List.tail_eq_of_cons_eq h
  rw [hnames]

instance : Std.LawfulEqOrd Path where
  compare_self := by
    intro p
    show (compare p.components p.components).then (compare p.anchor.slashes p.anchor.slashes) = .eq
    rw [Std.ReflOrd.compare_self, Std.ReflOrd.compare_self]
    rfl
  eq_of_compare := by
    intro p q h
    obtain ⟨hc, ha⟩ := Ordering.then_eq_eq.1 h
    exact eq_of_components (Std.LawfulEqOrd.eq_of_compare hc)
      (Anchor.slashes_injective (Std.LawfulEqOrd.eq_of_compare ha))

instance : Std.TransOrd Path :=
  inferInstanceAs (Std.TransCmp (compareLex (compareOn components) (compareOn fun p => p.anchor.slashes)))

end Path

namespace Edge

theorem kindText_injective : Function.Injective EdgeKind.text := by
  intro a b h
  cases a <;> cases b <;> first | rfl | exact absurd h (by decide)

/-- A label is determined by its text and by whether it is there. -/
theorem label_eq {a b : Option Text} (h : a.getD [] = b.getD []) (hs : a.isSome.toNat = b.isSome.toNat) : a = b := by
  cases a <;> cases b <;> simp_all

instance : Std.LawfulEqCmp order where
  compare_self := by
    intro e
    simp only [order, Std.ReflOrd.compare_self, Ordering.then_eq]
  eq_of_compare := by
    intro e f h
    simp only [order, Ordering.then_eq_eq, Std.LawfulEqOrd.compare_eq_iff_eq] at h
    obtain ⟨hsource, htarget, hkind, hlabel, hsome⟩ := h
    obtain ⟨s, t, k, l⟩ := e
    obtain ⟨s', t', k', l'⟩ := f
    rw [Edge.mk.injEq]
    exact ⟨hsource, htarget, kindText_injective hkind, label_eq hlabel hsome⟩

instance : Std.TransCmp order :=
  inferInstanceAs (Std.TransCmp (compareLex (compareOn source) (compareLex (compareOn target)
    (compareLex (compareOn fun e => e.kind.text) (compareLex (compareOn fun e => e.label.getD [])
      (compareOn fun e => e.label.isSome.toNat))))))

end Edge

namespace Mention

instance : Std.LawfulEqCmp order where
  compare_self := by
    intro m
    simp only [order, Std.ReflOrd.compare_self, Ordering.then_eq]
  eq_of_compare := by
    intro m n h
    simp only [order, Ordering.then_eq_eq, Std.LawfulEqOrd.compare_eq_iff_eq] at h
    obtain ⟨s, p⟩ := m
    obtain ⟨s', p'⟩ := n
    rw [Mention.mk.injEq]
    exact h

instance : Std.TransCmp order := inferInstanceAs (Std.TransCmp (compareLex (compareOn source) (compareOn modulePath)))

end Mention

/-! ## Additions -/

namespace ModuleGraph

variable {g : ModuleGraph} {p q : Path} {e f : Edge} {m n : Mention}

/-- Every part of the graph is strictly increasing. -/
structure Ordered (g : ModuleGraph) : Prop where
  nodes : g.nodes.Pairwise (compare · · = .lt)
  edges : g.edges.Pairwise (Edge.order · · = .lt)
  missing : g.missing.Pairwise (Mention.order · · = .lt)
  builtins : g.builtins.Pairwise (Mention.order · · = .lt)

theorem ordered_empty : empty.Ordered := ⟨.nil, .nil, .nil, .nil⟩

theorem Ordered.addNode (h : g.Ordered) (p : Path) : (g.addNode p).Ordered :=
  { h with nodes := pairwise_insertSorted h.nodes }

theorem Ordered.addEdge (h : g.Ordered) (e : Edge) : (g.addEdge e).Ordered :=
  { (h.addNode e.source).addNode e.target with edges := pairwise_insertSorted h.edges }

theorem Ordered.addMissing (h : g.Ordered) (m : Mention) : (g.addMissing m).Ordered :=
  { h.addNode m.source with missing := pairwise_insertSorted h.missing }

theorem Ordered.addBuiltin (h : g.Ordered) (m : Mention) : (g.addBuiltin m).Ordered :=
  { h.addNode m.source with builtins := pairwise_insertSorted h.builtins }

/-! ### What an addition adds, and what it leaves -/

@[simp] theorem mem_nodes_addNode : q ∈ (g.addNode p).nodes ↔ q = p ∨ q ∈ g.nodes := mem_insertSorted

@[simp] theorem edges_addNode : (g.addNode p).edges = g.edges := rfl

@[simp] theorem missing_addNode : (g.addNode p).missing = g.missing := rfl

@[simp] theorem builtins_addNode : (g.addNode p).builtins = g.builtins := rfl

@[simp] theorem mem_nodes_addEdge : q ∈ (g.addEdge e).nodes ↔ q = e.target ∨ q = e.source ∨ q ∈ g.nodes := by
  show q ∈ ((g.addNode e.source).addNode e.target).nodes ↔ _
  rw [mem_nodes_addNode, mem_nodes_addNode]

@[simp] theorem mem_edges_addEdge : f ∈ (g.addEdge e).edges ↔ f = e ∨ f ∈ g.edges := mem_insertSorted

@[simp] theorem missing_addEdge : (g.addEdge e).missing = g.missing := rfl

@[simp] theorem builtins_addEdge : (g.addEdge e).builtins = g.builtins := rfl

@[simp] theorem mem_nodes_addMissing : q ∈ (g.addMissing m).nodes ↔ q = m.source ∨ q ∈ g.nodes := mem_insertSorted

@[simp] theorem edges_addMissing : (g.addMissing m).edges = g.edges := rfl

@[simp] theorem mem_missing_addMissing : n ∈ (g.addMissing m).missing ↔ n = m ∨ n ∈ g.missing := mem_insertSorted

@[simp] theorem builtins_addMissing : (g.addMissing m).builtins = g.builtins := rfl

@[simp] theorem mem_nodes_addBuiltin : q ∈ (g.addBuiltin m).nodes ↔ q = m.source ∨ q ∈ g.nodes := mem_insertSorted

@[simp] theorem edges_addBuiltin : (g.addBuiltin m).edges = g.edges := rfl

@[simp] theorem missing_addBuiltin : (g.addBuiltin m).missing = g.missing := rfl

@[simp] theorem mem_builtins_addBuiltin : n ∈ (g.addBuiltin m).builtins ↔ n = m ∨ n ∈ g.builtins := mem_insertSorted

end ModuleGraph

end SassModules
