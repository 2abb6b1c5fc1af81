import SassModules.Proofs.Rows

/-!
# Trees, line by line

A tree that is unrolled from a start is drawn with one line for each of its rows (`hanging_treeAt`): in front the strokes,
which say of each module on the way, and of the row itself, whether another item of the same module comes later, and then
the title. So a drawing is told by the rows of its trees (`drawing_eq_rows`), and since `rows` lists these exactly, in
depth-first order, by the graph alone (`drawing_shows_all_rows`).

The induction is on the height that is left, along a trail: the tree below a trail (`treeAt`) and the rows from it on
(`rowsFrom`) take the same step, from a trail to the trail with one more edge.
-/

namespace SassModules.ModuleGraph

/-! ## Lines of rows -/

section Lines

variable (g : ModuleGraph) (l : Leaves) (s : Strokes)

/-- The stroke in front of what hangs below an item. -/
def itemBlock (i : Item) : Text := if g.HasLater l i then s.vertical else s.space

/-- The stroke in front of an item. -/
def itemConnector (i : Item) : Text := if g.HasLater l i then s.branch else s.last

/-- The strokes in front of a row: a block for each item on the way to it, and the connector of its own item. The row of
the start has none. -/
def Row.strokes (start : Path) (r : Row) : Text :=
  (r.items start).dropLast.flatMap (itemBlock g l s) ++ (r.items start).getLast?.elim [] (itemConnector g l s)

/-- What a row says: the text of a leaf, or the module, with a mark when it is open already and with how it is loaded. -/
def Row.title (display : Path → Text) (start : Path) (r : Row) : Text :=
  r.leaf.getD (display (r.subject start) ++ (if r.IsMarked start then " [*]".toList else []) ++
    r.trail.getLast?.elim [] fun e => "  (".toList ++ e.describe ++ [')'])

/-- The line of a row. -/
def Row.line (display : Path → Text) (start : Path) (r : Row) : Text := r.strokes g l s start ++ r.title display start

/-- The strokes in front of what hangs below a trail. -/
def trunk (es : List Edge) : Text := es.flatMap fun e => itemBlock g l s (.edge e)

end Lines

section Strokes

variable {g : ModuleGraph} {l : Leaves} {s : Strokes} {start p : Path} {es : List Edge} {e : Edge} {t : Text} {i : Item}
  {before after : List Item}

theorem trunk_concat : trunk g l s (es ++ [e]) = trunk g l s es ++ itemBlock g l s (.edge e) := by
  simp only [trunk, List.flatMap_append, List.flatMap_singleton]

theorem strokes_edge : Row.strokes g l s start ⟨es ++ [e], none⟩ = trunk g l s es ++ itemConnector g l s (.edge e) := by
  simp [Row.strokes, Row.items, trunk, List.flatMap_map]

theorem strokes_leaf : Row.strokes g l s start ⟨es, some t⟩ =
    trunk g l s es ++ itemConnector g l s (.leaf (trailEnd start es) t) := by
  simp [Row.strokes, Row.items, Row.subject, trunk, List.flatMap_map]

/-- What comes after an item decides on the strokes of the drawing. -/
theorem connector_eq (h : g.Ordered) (hi : g.itemsOf l p = before ++ i :: after) :
    s.connector after.isEmpty = itemConnector g l s i := by
  simp only [Strokes.connector, itemConnector, hasLater_iff h hi, List.isEmpty_iff, ne_eq, ite_not]

theorem continuation_eq (h : g.Ordered) (hi : g.itemsOf l p = before ++ i :: after) :
    s.continuation after.isEmpty = itemBlock g l s i := by
  simp only [Strokes.continuation, itemBlock, hasLater_iff h hi, List.isEmpty_iff, ne_eq, ite_not]

end Strokes

/-! ## Trees below trails -/

/-- The tree below a trail. -/
def treeAt (g : ModuleGraph) (l : Leaves) (start : Path) (height : Nat) (es : List Edge) : Branch :=
  g.unroll l height (es.map Edge.source).reverse (es.getLast?.map Edge.describe) (trailEnd start es)

/-- The tree that an item of the last module of a trail stands for. -/
def itemTree (next : List Edge → Branch) (es : List Edge) : Item → Branch
  | .edge e => next (es ++ [e])
  | .leaf _ t => .leaf t

section Trees

variable {g : ModuleGraph} {l : Leaves} {s : Strokes} {display : Path → Text} {start : Path} {height : Nat}
  {es : List Edge}

theorem treeAt_marked (h : trailEnd start es ∈ es.map Edge.source) : g.treeAt l start (height + 1) es =
    .module (trailEnd start es) (es.getLast?.map Edge.describe) true [] := by
  rw [treeAt, unroll, if_pos (by simpa using h)]

/-- Below a module that is not open hang the trees of its items. -/
theorem treeAt_expanded (h : trailEnd start es ∉ es.map Edge.source) : g.treeAt l start (height + 1) es =
    .module (trailEnd start es) (es.getLast?.map Edge.describe) false
      ((g.itemsOf l (trailEnd start es)).map (itemTree (g.treeAt l start height) es)) := by
  rw [treeAt, unroll, if_neg (by simpa using h), itemsOf, List.map_append, List.map_map, List.map_map]
  congr 2
  refine List.map_congr_left fun e he => ?_
  show _ = g.treeAt l start height (es ++ [e])
  rw [treeAt, List.map_append, List.map_singleton, List.reverse_concat, (mem_edgesOf.1 he).2, List.getLast?_concat,
    trailEnd_concat]
  rfl

/-- More height than a trail can pass makes no difference. -/
theorem treeAt_eq (hg : g.HasModules) : ∀ {height height' : Nat} {es : List Edge}, g.HasRoom start height es →
    g.HasRoom start height' es → g.treeAt l start height es = g.treeAt l start height' es
  | 0, _, _, h, _ => absurd (h.height_pos hg) (Nat.lt_irrefl 0)
  | _, 0, _, _, h' => absurd (h'.height_pos hg) (Nat.lt_irrefl 0)
  | height + 1, height' + 1, es, h, h' => by
    by_cases hmarked : trailEnd start es ∈ es.map Edge.source
    · rw [treeAt_marked hmarked, treeAt_marked hmarked]
    · rw [treeAt_expanded hmarked, treeAt_expanded hmarked]
      congr 1
      refine List.map_congr_left fun i hi => ?_
      cases i with
      | edge e =>
        have he := edge_mem_itemsOf.1 hi
        exact treeAt_eq hg (h.step hmarked he) (h'.step hmarked he)
      | leaf q t => rfl

theorem title_treeAt : (g.treeAt l start (height + 1) es).title display = Row.title display start ⟨es, none⟩ := by
  by_cases hmarked : trailEnd start es ∈ es.map Edge.source
  · rw [treeAt_marked hmarked]
    cases h : es.getLast? <;> simp [Branch.title, Row.title, Row.IsMarked, Row.subject, hmarked, h]
  · rw [treeAt_expanded hmarked]
    cases h : es.getLast? <;> simp [Branch.title, Row.title, Row.IsMarked, Row.subject, hmarked, h]

/-- The lines of sibling items, item by item: each is told what follows it. -/
theorem itemLines_map {strokes : Text} {tree : Item → Branch} {block : Item → List Text} : ∀ {items : List Item},
    (∀ before i after, items = before ++ i :: after →
      (strokes ++ s.connector after.isEmpty ++ (tree i).title display) ::
        Branch.hanging s display (strokes ++ s.continuation after.isEmpty) (tree i) = block i) →
    Branch.itemLines s display strokes (items.map tree) = items.flatMap block
  | [], _ => rfl
  | i :: items, h => by
    have hfirst := h [] i items rfl
    have hrest : Branch.itemLines s display strokes (items.map tree) = items.flatMap block :=
      itemLines_map fun before j after heq => h (i :: before) j after (by rw [heq, List.cons_append])
    rw [List.map_cons, Branch.itemLines, List.isEmpty_map, hrest, List.flatMap_cons, ← hfirst]

/-- Below a tree hang the lines of the rows from its trail on. -/
theorem hanging_treeAt (hordered : g.Ordered) (hg : g.HasModules) : ∀ {height : Nat} {es : List Edge},
    g.HasRoom start height es → (g.treeAt l start height es).hanging s display (trunk g l s es) =
      (g.rowsFrom l start height es).tail.map (Row.line g l s display start)
  | 0, _, h => absurd (h.height_pos hg) (Nat.lt_irrefl 0)
  | height + 1, es, h => by
    by_cases hmarked : trailEnd start es ∈ es.map Edge.source
    · rw [treeAt_marked hmarked, rowsFrom_marked hmarked, Branch.hanging, Branch.itemLines]
      rfl
    rw [treeAt_expanded hmarked, rowsFrom_expanded hmarked, Branch.hanging, List.tail_cons, List.map_flatMap]
    refine itemLines_map fun before i after hi => ?_
    rw [connector_eq hordered hi, continuation_eq hordered hi]
    have hmem : i ∈ g.itemsOf l (trailEnd start es) := by rw [hi]; simp
    cases i with
    | edge e =>
      have hroom := h.step hmarked (edge_mem_itemsOf.1 hmem)
      obtain ⟨k, rfl⟩ := Nat.exists_eq_succ_of_ne_zero (hroom.height_pos hg).ne'
      show _ = (g.rowsFrom l start (k + 1) (es ++ [e])).map _
      rw [rowsFrom_eq_cons, List.map_cons, ← hanging_treeAt hordered hg hroom, trunk_concat, Row.line, strokes_edge,
        ← title_treeAt]
      rfl
    | leaf q t =>
      obtain rfl : q = trailEnd start es := (leaf_mem_itemsOf.1 hmem).1
      show _ = [Row.line g l s display start ⟨es, some t⟩]
      rw [Row.line, strokes_leaf]
      rfl

/-- A tree is drawn with the lines of its rows. -/
theorem lines_treeAt (hordered : g.Ordered) (hg : g.HasModules) :
    (g.treeAt l start (g.nodes.length + 1) []).lines s display = (g.rows l start).map (Row.line g l s display start) := by
  have hroom : g.HasRoom start (g.nodes.length + 1) [] := .ofStart (Nat.lt_succ_self _)
  rw [rows, rowsFrom_eq_cons, List.map_cons, ← hanging_treeAt hordered hg hroom, Branch.lines, title_treeAt]
  rfl

end Trees

/-! ## Drawings -/

section Drawings

variable {g : ModuleGraph} {l : Leaves} {s : Strokes} {v : Viewpoint}

/-- A drawing has the lines of the rows of its trees. -/
theorem drawing_eq_rows (hordered : g.Ordered) (hg : g.HasModules) : g.drawing v s l = Text.join "\n" ([[]].intercalate
    (g.starts.map fun p => (g.rows l p).map (Row.line g l s v.display p))) := by
  have htrees : g.trees l = g.starts.map fun p => g.treeAt l p (g.nodes.length + 1) [] := rfl
  rw [drawing, htrees, List.map_map]
  congr 2
  exact List.map_congr_left fun p _ => lines_treeAt hordered hg

theorem starts_sublist (g : ModuleGraph) : g.starts.Sublist g.nodes := by
  have hroots : g.roots.Sublist g.nodes := List.filter_sublist
  have hloading : (g.nodes.filter fun p => !(g.edgesOf p).isEmpty).Sublist g.nodes := List.filter_sublist
  unfold starts
  split
  · rename_i heq
    rwa [heq] at hroots
  · split
    · rename_i heq
      rwa [heq] at hloading
    · exact List.Sublist.refl _

end Drawings

/-- The list holds the rows of the tree from a start, each of them once, in depth-first order. -/
structure ListsRows (g : ModuleGraph) (l : Leaves) (start : Path) (rows : List Row) : Prop where
  mem_iff : ∀ r, r ∈ rows ↔ g.IsRow l start r
  nodup : rows.Nodup
  depthFirst : rows.Pairwise (g.Precedes l start)

theorem listsRows_rows {g : ModuleGraph} (hordered : g.Ordered) (hg : g.HasModules) (l : Leaves) (start : Path) :
    g.ListsRows l start (g.rows l start) where
  mem_iff _ := mem_rows hg
  nodup := nodup_rows hordered
  depthFirst := precedes_rowsFrom _ _

/-- The items of every module are in order: edges, then unresolved and built-in modules. -/
structure ItemsInOrder (g : ModuleGraph) : Prop where
  edgesOf : ∀ p, (g.edgesOf p).Pairwise (Edge.order · · = .lt)
  missingOf : ∀ p, (g.missingOf p).Pairwise (compare · · = .lt)
  builtinsOf : ∀ p, (g.builtinsOf p).Pairwise (compare · · = .lt)

theorem Ordered.itemsInOrder {g : ModuleGraph} (h : g.Ordered) : g.ItemsInOrder where
  edgesOf _ := h.edges.filter _
  missingOf := increasing_modulePaths h.missing
  builtinsOf := increasing_modulePaths h.builtins

/-- Strokes are four characters wide, and the two strokes of each pair differ. -/
structure FourWide (s : Strokes) : Prop where
  branch : s.branch.length = 4
  last : s.last.length = 4
  vertical : s.vertical.length = 4
  space : s.space.length = 4
  connectors : s.last ≠ s.branch
  blocks : s.vertical ≠ s.space

/-- **The trees are the unrolling of the graph, cut at cycles.** Unrolling ends: any height above the number of modules
gives the same trees. The drawing has the lines of the rows of the trees, tree after tree in the order of their starts,
with an empty line between them, and the rows of a tree are listed each once in depth-first order. -/
theorem drawing_shows_all_rows (as : List Addition) (v : Viewpoint) (s : Strokes) (l : Leaves)
    (hs : s = .box ∨ s = .plain) :
    let g := ofAdditions as
    (∀ height, g.nodes.length < height → g.starts.map (g.unroll l height [] none) = g.trees l) ∧
    g.drawing v s l = Text.join "\n" ([[]].intercalate
      (g.starts.map fun p => (g.rows l p).map (Row.line g l s v.display p))) ∧
    g.starts.Pairwise (compare · · = .lt) ∧ (∀ p, g.ListsRows l p (g.rows l p)) ∧ g.ItemsInOrder ∧ FourWide s := by
  intro g
  have hordered : g.Ordered := ordered_ofAdditions as
  have hg : g.HasModules := hasModules_ofAdditions as
  refine ⟨fun height hheight => ?_, drawing_eq_rows hordered hg, hordered.nodes.sublist (starts_sublist g),
    listsRows_rows hordered hg l, hordered.itemsInOrder, ?_⟩
  · refine List.map_congr_left fun p _ => ?_
    show g.treeAt l p height [] = g.treeAt l p (g.nodes.length + 1) []
    exact treeAt_eq hg (.ofStart hheight) (.ofStart (Nat.lt_succ_self _))
  · rcases hs with rfl | rfl
    · constructor <;> decide
    · constructor <;> decide

/-- The lines of the sample: each of the two modules that load each other is cut below the other. -/
theorem drawing_shows_all_rows_sample :
    let g := ofAdditions Sample.additions
    g.drawing Sample.viewpoint .box ⟨true, true⟩ = Text.join "\n" (["main.scss",
      "├── theme.scss  (@use as t)",
      "│   └── tools.scss  (@forward)",
      "│       └── theme.scss [*]  (@forward)",
      "├── tools.scss  (@forward)",
      "│   └── theme.scss  (@forward)",
      "│       └── tools.scss [*]  (@forward)",
      "├── tools.scss  (@forward as tl-*)",
      "│   └── theme.scss  (@forward)",
      "│       └── tools.scss [*]  (@forward)",
      "├── ./gone [MISSING]",
      "└── sass:math [BUILTIN]"].map String.toList) ∧
    g.nodes.length < 7 ∧ g.starts.map (g.unroll ⟨true, true⟩ 7 [] none) = g.trees ⟨true, true⟩ ∧
    g.drawing Sample.viewpoint .box ⟨true, true⟩ = Text.join "\n" ([[]].intercalate
      (g.starts.map fun p => (g.rows ⟨true, true⟩ p).map (Row.line g ⟨true, true⟩ .box Sample.viewpoint.display p))) ∧
    g.starts.Pairwise (compare · · = .lt) ∧ (∀ p, g.ListsRows ⟨true, true⟩ p (g.rows ⟨true, true⟩ p)) ∧
    g.ItemsInOrder ∧ FourWide .box := by
  intro g
  have hsize : g.nodes.length < 7 := by decide +kernel
  have h := drawing_shows_all_rows Sample.additions Sample.viewpoint .box ⟨true, true⟩ (Or.inl rfl)
  exact ⟨by decide +kernel, hsize, h.1 7 hsize, h.2⟩

end SassModules.ModuleGraph
