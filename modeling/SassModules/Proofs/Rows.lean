import SassModules.Proofs.Additions

/-!
# The rows of a tree

A tree that is unrolled from a start module has one row for each trail, a path of edges from the start on, along which no
module is left twice; the last module of a trail may be one that is open already, and is marked then. A module that is
not marked has a row for each of its leaves as well. `IsRow` says which rows there are and `Precedes` in what order:
depth first, by the order of the items of each module. `rows` lists them.

* `mem_rowsFrom`: the list holds the rows and nothing else. The height that is left below a trail is enough because the
  modules on it are different (`HasRoom`).
* `precedes_rowsFrom`: the list is in depth-first order. Items of one module are different (`nodup_itemsOf`), so no row
  is repeated.
-/

namespace SassModules.ModuleGraph

/-! ## Items -/

/-- What hangs below a module in a tree: an edge to a module, or a leaf. -/
inductive Item where
  | edge (e : Edge)
  | leaf (source : Path) (text : Text)
deriving DecidableEq

/-- The module that an item hangs below. -/
def Item.source : Item → Path
  | .edge e => e.source
  | .leaf p _ => p

/-- What hangs below a module: its edges, then its leaves. -/
def itemsOf (g : ModuleGraph) (l : Leaves) (p : Path) : List Item :=
  (g.edgesOf p).map .edge ++ (g.leavesOf l p).map (.leaf p)

/-- The first item comes before the second among the items of its module. -/
def Before (g : ModuleGraph) (l : Leaves) (i j : Item) : Prop := [i, j].Sublist (g.itemsOf l i.source)

/-- Another item of the same module comes later. -/
def HasLater (g : ModuleGraph) (l : Leaves) (i : Item) : Prop := ∃ j ∈ g.itemsOf l i.source, g.Before l i j

instance (g : ModuleGraph) (l : Leaves) (i j : Item) : Decidable (g.Before l i j) :=
  inferInstanceAs (Decidable ([i, j].Sublist _))

instance (g : ModuleGraph) (l : Leaves) (i : Item) : Decidable (g.HasLater l i) :=
  inferInstanceAs (Decidable (∃ j ∈ g.itemsOf l i.source, g.Before l i j))

section Items

variable {g : ModuleGraph} {l : Leaves} {p : Path} {e : Edge} {t : Text} {i : Item}

@[simp] theorem edge_mem_itemsOf : .edge e ∈ g.itemsOf l p ↔ e ∈ g.edgesOf p := by simp [itemsOf]

@[simp] theorem leaf_mem_itemsOf {q : Path} : .leaf q t ∈ g.itemsOf l p ↔ q = p ∧ t ∈ g.leavesOf l p := by
  simp only [itemsOf, List.mem_append, List.mem_map, reduceCtorEq, and_false, exists_false, false_or, Item.leaf.injEq]
  grind

theorem source_of_mem_itemsOf (h : i ∈ g.itemsOf l p) : i.source = p := by
  cases i with
  | edge e => exact (mem_edgesOf.1 (edge_mem_itemsOf.1 h)).2
  | leaf q t => exact (leaf_mem_itemsOf.1 h).1

theorem nodup_modulePaths {ms : List Mention} (h : ms.Pairwise (Mention.order · · = .lt)) (p : Path) :
    ((ms.filter (·.source == p)).map (·.modulePath)).Nodup := nodup_of_increasing (increasing_modulePaths h p)

/-- The leaves of a module are different: the mark at the end tells the two kinds apart. -/
theorem nodup_leavesOf (h : g.Ordered) (l : Leaves) (p : Path) : (g.leavesOf l p).Nodup := by
  have hmarked : ∀ (ts : List Text) (mark : Text), ts.Nodup → (ts.map (· ++ mark)).Nodup := fun ts mark hts =>
    hts.map fun _ _ => List.append_cancel_right
  have hmissing := hmarked _ " [MISSING]".toList (nodup_modulePaths h.missing p)
  have hbuiltins := hmarked _ " [BUILTIN]".toList (nodup_modulePaths h.builtins p)
  refine List.nodup_append.2 ⟨?_, ?_, ?_⟩
  · split
    · exact hmissing
    · exact List.nodup_nil
  · split
    · exact hbuiltins
    · exact List.nodup_nil
  · intro t ht u hu
    split at ht <;> split at hu <;> try simp only [List.not_mem_nil] at ht hu
    obtain ⟨a, -, rfl⟩ := List.mem_map.1 ht
    obtain ⟨b, -, rfl⟩ := List.mem_map.1 hu
    exact fun heq => absurd (List.append_inj_right' heq (by decide)) (by decide)

/-- The items of a module are different. -/
theorem nodup_itemsOf (h : g.Ordered) (l : Leaves) (p : Path) : (g.itemsOf l p).Nodup := by
  refine List.nodup_append.2 ⟨?_, ?_, ?_⟩
  · exact (nodup_of_increasing (h.edges.filter _)).map fun _ _ => Item.edge.inj
  · exact (nodup_leavesOf h l p).map fun _ _ heq => (Item.leaf.inj heq).2
  · intro i hi j hj
    obtain ⟨e, -, rfl⟩ := List.mem_map.1 hi
    obtain ⟨t, -, rfl⟩ := List.mem_map.1 hj
    exact nofun

/-- No item comes before itself. -/
theorem not_before_self (h : g.Ordered) (l : Leaves) (i : Item) : ¬ g.Before l i i := fun hbefore =>
  (List.nodup_cons.1 ((nodup_itemsOf h l i.source).sublist hbefore)).1 List.mem_cons_self

/-- An item has a later one exactly when something follows it. -/
theorem hasLater_iff (h : g.Ordered) {before after : List Item} (hi : g.itemsOf l p = before ++ i :: after) :
    g.HasLater l i ↔ after ≠ [] := by
  have hmem : i ∈ g.itemsOf l p := by rw [hi]; simp
  unfold HasLater Before
  rw [source_of_mem_itemsOf hmem, hi]
  constructor
  · rintro ⟨j, -, hsub⟩ rfl
    have hnodup := nodup_itemsOf h l p
    rw [hi] at hnodup
    have hnew : i ∉ before := fun hmem => (List.nodup_append.1 hnodup).2.2 i hmem i List.mem_cons_self rfl
    -- two elements in a row that ends with `i` begin in front of it
    obtain ⟨_ | ⟨a, as⟩, bs, heq, has, hbs⟩ := List.sublist_append_iff.1 hsub
    · rw [List.nil_append] at heq
      have := hbs.length_le
      rw [← heq] at this
      exact absurd this (by simp)
    · rw [List.cons_append, List.cons.injEq] at heq
      exact hnew (has.subset (by rw [heq.1]; exact List.mem_cons_self))
  · intro hne
    obtain ⟨j, rest, rfl⟩ := List.exists_cons_of_ne_nil hne
    refine ⟨j, by simp, List.Sublist.trans ?_ (List.sublist_append_right before _)⟩
    simp

end Items

/-! ## Trails -/

/-- Each edge leaves the module that the one before leads to; the first one leaves the given module. -/
def IsTrail (g : ModuleGraph) : Path → List Edge → Prop
  | _, [] => True
  | p, e :: es => e ∈ g.edgesOf p ∧ IsTrail g e.target es

/-- The module that a trail leads to. -/
def trailEnd (start : Path) (es : List Edge) : Path := (es.getLast?.map Edge.target).getD start

section Trails

variable {g : ModuleGraph} {start p : Path} {e : Edge} {es fs : List Edge}

@[simp] theorem trailEnd_nil : trailEnd start [] = start := rfl

@[simp] theorem trailEnd_concat : trailEnd start (es ++ [e]) = e.target := by simp [trailEnd]

theorem trailEnd_cons : trailEnd start (e :: es) = trailEnd e.target es := by
  cases es with
  | nil => rfl
  | cons f fs => simp [trailEnd, List.getLast?_cons]

theorem isTrail_append : ∀ {start : Path} {es : List Edge},
    g.IsTrail start (es ++ fs) ↔ g.IsTrail start es ∧ g.IsTrail (trailEnd start es) fs
  | _, [] => by simp [IsTrail]
  | _, e :: es => by
    rw [List.cons_append, IsTrail, IsTrail, isTrail_append, trailEnd_cons, and_assoc]

theorem isTrail_concat : g.IsTrail start (es ++ [e]) ↔ g.IsTrail start es ∧ e ∈ g.edgesOf (trailEnd start es) := by
  rw [isTrail_append, IsTrail, IsTrail, and_true]

theorem nodup_sources_concat (h : (es.map Edge.source).Nodup) (hnew : trailEnd start es ∉ es.map Edge.source)
    (he : e.source = trailEnd start es) : ((es ++ [e]).map Edge.source).Nodup := by
  rw [List.map_append, List.map_singleton, he, ← List.concat_eq_append]
  exact h.concat hnew

theorem source_mem_nodes (hg : g.HasModules) : ∀ {start : Path} {es : List Edge}, g.IsTrail start es →
    ∀ p ∈ es.map Edge.source, p ∈ g.nodes
  | _, [], _ => nofun
  | _, e :: es, h => by
    obtain ⟨he, hrest⟩ := h
    intro p hp
    rcases List.mem_cons.1 hp with rfl | hp
    · exact hg.source e (mem_edgesOf.1 he).1
    · exact source_mem_nodes hg hrest p hp

end Trails

/-- A trail that leaves no module twice, with so many levels left below it that no such trail can pass them all. -/
structure HasRoom (g : ModuleGraph) (start : Path) (height : Nat) (es : List Edge) : Prop where
  trail : g.IsTrail start es
  nodup : (es.map Edge.source).Nodup
  room : g.nodes.length < height + es.length

namespace HasRoom

variable {g : ModuleGraph} {start : Path} {height : Nat} {e : Edge} {es : List Edge}

theorem ofStart (h : g.nodes.length < height) : g.HasRoom start height [] := ⟨trivial, List.nodup_nil, h⟩

/-- The modules on the trail are modules of the graph, so at least one level is left. -/
theorem height_pos (hg : g.HasModules) (h : g.HasRoom start height es) : 0 < height := by
  have hle := (List.subperm_of_subset h.nodup (source_mem_nodes hg h.trail)).length_le
  rw [List.length_map] at hle
  have := h.room
  omega

/-- One level down, past a module that is not open. -/
theorem step (h : g.HasRoom start (height + 1) es) (hnew : trailEnd start es ∉ es.map Edge.source)
    (he : e ∈ g.edgesOf (trailEnd start es)) : g.HasRoom start height (es ++ [e]) where
  trail := isTrail_concat.2 ⟨h.trail, he⟩
  nodup := nodup_sources_concat h.nodup hnew (mem_edgesOf.1 he).2
  room := by
    have := h.room
    rw [List.length_append, List.length_singleton]
    omega

end HasRoom

/-! ## Rows -/

/-- A row of a tree: the trail to a module, and for a leaf of that module also its text. -/
structure Row where
  trail : List Edge
  leaf : Option Text
deriving DecidableEq

namespace Row

/-- The module that the row is about. -/
def subject (start : Path) (r : Row) : Path := trailEnd start r.trail

/-- The items on the way to the row, the row's own one last. -/
def items (start : Path) (r : Row) : List Item :=
  r.trail.map .edge ++ (r.leaf.map (Item.leaf (r.subject start))).toList

/-- The module is open already when the row is reached. -/
def IsMarked (start : Path) (r : Row) : Prop := r.subject start ∈ r.trail.map Edge.source

instance (start : Path) (r : Row) : Decidable (r.IsMarked start) :=
  inferInstanceAs (Decidable (_ ∈ r.trail.map Edge.source))

end Row

/-- The rows of the tree that is unrolled from a start: no module is left twice, and only a module that is not marked has
leaves. -/
structure IsRow (g : ModuleGraph) (l : Leaves) (start : Path) (r : Row) : Prop where
  trail : g.IsTrail start r.trail
  nodup : (r.trail.map Edge.source).Nodup
  leaf : ∀ t ∈ r.leaf, ¬ r.IsMarked start ∧ t ∈ g.leavesOf l (r.subject start)

/-- Depth-first order: a row comes before the rows below it, and what goes through an item comes before what goes through
a later item of the same module. -/
def Precedes (g : ModuleGraph) (l : Leaves) (start : Path) (r r' : Row) : Prop :=
  (r.items start <+: r'.items start ∧ r ≠ r') ∨
    ∃ above i j, above ++ [i] <+: r.items start ∧ above ++ [j] <+: r'.items start ∧ g.Before l i j

/-- The rows through an item of the module that a trail leads to. -/
def rowsThrough (next : List Edge → List Row) (es : List Edge) : Item → List Row
  | .edge e => next (es ++ [e])
  | .leaf _ t => [⟨es, some t⟩]

/-- The rows from a trail on, at most `height` levels down. -/
def rowsFrom (g : ModuleGraph) (l : Leaves) (start : Path) : (height : Nat) → List Edge → List Row
  | 0, es => [⟨es, none⟩]
  | height + 1, es =>
    ⟨es, none⟩ ::
      if trailEnd start es ∈ es.map Edge.source then []
      else (g.itemsOf l (trailEnd start es)).flatMap (rowsThrough (rowsFrom g l start height) es)

/-- The rows of the tree that is unrolled from a start. -/
def rows (g : ModuleGraph) (l : Leaves) (start : Path) : List Row := g.rowsFrom l start (g.nodes.length + 1) []

section Rows

variable {g : ModuleGraph} {l : Leaves} {start : Path} {height : Nat} {es : List Edge} {r : Row} {i : Item}

theorem rowsFrom_marked (h : trailEnd start es ∈ es.map Edge.source) :
    g.rowsFrom l start (height + 1) es = [⟨es, none⟩] := by
  rw [rowsFrom, if_pos h]

theorem rowsFrom_expanded (h : trailEnd start es ∉ es.map Edge.source) : g.rowsFrom l start (height + 1) es =
    ⟨es, none⟩ :: (g.itemsOf l (trailEnd start es)).flatMap (rowsThrough (g.rowsFrom l start height) es) := by
  rw [rowsFrom, if_neg h]

/-- Every list of rows from a trail on begins with the row of the trail. -/
theorem rowsFrom_eq_cons : g.rowsFrom l start height es = ⟨es, none⟩ :: (g.rowsFrom l start height es).tail := by
  cases height <;> rfl

/-! ### Which rows there are -/

/-- No trail goes on behind a marked module. -/
theorem IsRow.eq_of_marked (h : g.IsRow l start r) (hes : es <+: r.trail)
    (hmarked : trailEnd start es ∈ es.map Edge.source) : r = ⟨es, none⟩ := by
  obtain ⟨trail, leaf⟩ := r
  obtain ⟨rest, rfl⟩ := hes
  cases rest with
  | nil =>
    simp only [List.append_nil] at h ⊢
    cases leaf with
    | none => rfl
    | some t => exact absurd hmarked (h.leaf t rfl).1
  | cons e rest =>
    have hsource : e.source = trailEnd start es := (mem_edgesOf.1 (isTrail_append.1 h.trail).2.1).2
    have hnodup := h.nodup
    rw [List.map_append, List.map_cons, hsource] at hnodup
    exact absurd rfl ((List.nodup_append.1 hnodup).2.2 _ hmarked _ List.mem_cons_self)

/-- A row from a module on that is not marked is the row of the module, the row of a leaf, or a row from an edge on. -/
theorem isRow_expanded_iff (hnew : trailEnd start es ∉ es.map Edge.source) :
    g.IsRow l start r ∧ es <+: r.trail ↔
      (g.IsRow l start r ∧ r = ⟨es, none⟩) ∨ (g.IsTrail start es ∧ (es.map Edge.source).Nodup ∧
        ∃ t ∈ g.leavesOf l (trailEnd start es), r = ⟨es, some t⟩) ∨
      ∃ e ∈ g.edgesOf (trailEnd start es), g.IsRow l start r ∧ es ++ [e] <+: r.trail := by
  constructor
  · rintro ⟨h, hes⟩
    obtain ⟨trail, leaf⟩ := r
    obtain ⟨rest, rfl⟩ := hes
    cases rest with
    | nil =>
      simp only [List.append_nil] at h ⊢
      cases leaf with
      | none => exact Or.inl ⟨h, rfl⟩
      | some t => exact Or.inr (Or.inl ⟨h.trail, h.nodup, t, (h.leaf t rfl).2, rfl⟩)
    | cons e rest =>
      have he : e ∈ g.edgesOf (trailEnd start es) := (isTrail_append.1 h.trail).2.1
      exact Or.inr (Or.inr ⟨e, he, h, ⟨rest, by simp⟩⟩)
  · rintro (⟨h, rfl⟩ | ⟨htrail, hnodup, t, ht, rfl⟩ | ⟨e, -, h, hes⟩)
    · exact ⟨h, List.prefix_refl _⟩
    · refine ⟨⟨htrail, hnodup, ?_⟩, List.prefix_refl _⟩
      rintro u ⟨⟩
      exact ⟨hnew, ht⟩
    · exact ⟨h, (List.prefix_append es [e]).trans hes⟩

/-- The rows from a trail on are the rows whose trail it begins. -/
theorem mem_rowsFrom (hg : g.HasModules) : ∀ {height : Nat} {es : List Edge}, g.HasRoom start height es →
    (r ∈ g.rowsFrom l start height es ↔ g.IsRow l start r ∧ es <+: r.trail)
  | 0, es, h => absurd (h.height_pos hg) (Nat.lt_irrefl 0)
  | height + 1, es, h => by
    have hown : g.IsRow l start ⟨es, none⟩ := ⟨h.trail, h.nodup, nofun⟩
    by_cases hmarked : trailEnd start es ∈ es.map Edge.source
    · rw [rowsFrom_marked hmarked, List.mem_singleton]
      constructor
      · rintro rfl
        exact ⟨hown, List.prefix_refl _⟩
      · rintro ⟨hr, hes⟩
        exact hr.eq_of_marked hes hmarked
    · rw [rowsFrom_expanded hmarked, List.mem_cons, List.mem_flatMap, isRow_expanded_iff hmarked]
      constructor
      · rintro (rfl | ⟨i, hi, hr⟩)
        · exact Or.inl ⟨hown, rfl⟩
        · cases i with
          | edge e =>
            have he := edge_mem_itemsOf.1 hi
            exact Or.inr (Or.inr ⟨e, he, (mem_rowsFrom hg (h.step hmarked he)).1 hr⟩)
          | leaf q t =>
            exact Or.inr (Or.inl ⟨h.trail, h.nodup, t, (leaf_mem_itemsOf.1 hi).2, List.mem_singleton.1 hr⟩)
      · rintro (⟨-, rfl⟩ | ⟨-, -, t, ht, rfl⟩ | ⟨e, he, hr⟩)
        · exact Or.inl rfl
        · exact Or.inr ⟨.leaf _ t, leaf_mem_itemsOf.2 ⟨rfl, ht⟩, List.mem_singleton_self _⟩
        · exact Or.inr ⟨.edge e, edge_mem_itemsOf.2 he, (mem_rowsFrom hg (h.step hmarked he)).2 hr⟩

theorem mem_rows (hg : g.HasModules) : r ∈ g.rows l start ↔ g.IsRow l start r := by
  rw [rows, mem_rowsFrom hg (.ofStart (Nat.lt_succ_self _))]
  exact and_iff_left (List.nil_prefix)

/-! ### In what order they come -/

/-- A trail begins the way to every row from it on. -/
theorem prefix_items (start : Path) (h : es <+: r.trail) : es.map .edge <+: r.items start :=
  (h.map Item.edge).trans (List.prefix_append _ _)

theorem prefix_of_mem_rowsFrom : ∀ {height : Nat} {es : List Edge}, r ∈ g.rowsFrom l start height es → es <+: r.trail
  | 0, es, h => by rw [List.mem_singleton.1 h]
  | height + 1, es, h => by
    rw [rowsFrom] at h
    rcases List.mem_cons.1 h with rfl | h
    · exact List.prefix_refl _
    · split at h
      · cases h
      · obtain ⟨i, -, hr⟩ := List.mem_flatMap.1 h
        cases i with
        | edge e => exact (List.prefix_append es [e]).trans (prefix_of_mem_rowsFrom hr)
        | leaf q t => rw [List.mem_singleton.1 hr]

/-- The way to a row through an item goes through the item. -/
theorem prefix_of_mem_rowsThrough (hi : i ∈ g.itemsOf l (trailEnd start es))
    (hr : r ∈ rowsThrough (g.rowsFrom l start height) es i) : es.map .edge ++ [i] <+: r.items start := by
  cases i with
  | edge e =>
    have := prefix_items start (prefix_of_mem_rowsFrom hr)
    rwa [List.map_append] at this
  | leaf q t =>
    rw [List.mem_singleton.1 hr, (leaf_mem_itemsOf.1 hi).1]
    exact List.prefix_refl _

/-- The rows from a trail on come in depth-first order. -/
theorem precedes_rowsFrom : ∀ (height : Nat) (es : List Edge),
    (g.rowsFrom l start height es).Pairwise (g.Precedes l start)
  | 0, es => List.pairwise_singleton _ _
  | height + 1, es => by
    by_cases hmarked : trailEnd start es ∈ es.map Edge.source
    · rw [rowsFrom_marked hmarked]
      exact List.pairwise_singleton _ _
    rw [rowsFrom_expanded hmarked]
    refine List.pairwise_cons.2 ⟨fun r hr => Or.inl ?_, List.pairwise_flatMap.2 ⟨?_, ?_⟩⟩
    · obtain ⟨i, hi, hr⟩ := List.mem_flatMap.1 hr
      have hway := prefix_of_mem_rowsThrough hi hr
      have hown : Row.items start ⟨es, none⟩ = es.map .edge := List.append_nil _
      refine ⟨by rw [hown]; exact (List.prefix_append _ _).trans hway, ?_⟩
      rintro rfl
      rw [hown] at hway
      simpa using hway.length_le
    · rintro (e | ⟨q, t⟩) -
      · exact precedes_rowsFrom height (es ++ [e])
      · exact List.pairwise_singleton _ _
    · refine List.pairwise_iff_forall_sublist.2 fun {i j} hij r hr r' hr' => Or.inr ⟨es.map .edge, i, j, ?_⟩
      have hi : i ∈ g.itemsOf l (trailEnd start es) := hij.subset (by simp)
      have hj : j ∈ g.itemsOf l (trailEnd start es) := hij.subset (by simp)
      refine ⟨prefix_of_mem_rowsThrough hi hr, prefix_of_mem_rowsThrough hj hr', ?_⟩
      rwa [Before, source_of_mem_itemsOf hi]

/-- No row comes before itself. -/
theorem not_precedes_self (h : g.Ordered) : ¬ g.Precedes l start r r := by
  rintro (⟨-, hne⟩ | ⟨above, i, j, hi, hj, hbefore⟩)
  · exact hne rfl
  · have heq := (List.prefix_of_prefix_length_le hi hj (by simp)).eq_of_length (by simp)
    obtain rfl : i = j := by simpa using heq
    exact not_before_self h l i hbefore

theorem nodup_rows (h : g.Ordered) : (g.rows l start).Nodup := by
  have horder : (g.rows l start).Pairwise (g.Precedes l start) := precedes_rowsFrom _ _
  refine horder.imp fun {r r'} hprecedes heq => ?_
  rw [heq] at hprecedes
  exact not_precedes_self h hprecedes

end Rows

end SassModules.ModuleGraph
