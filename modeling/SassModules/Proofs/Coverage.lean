import SassModules.Proofs.Drawing

/-!
# Which modules a drawing shows

A drawing shows a module when a row of one of its trees is about it. A tree shows whatever can be reached from its start
(`exists_row_iff_reaches`): a trail that comes back to a module can be cut short. Trees start from the roots, and only a
graph without any root is unrolled from every module that loads something (`mem_starts_iff`). So a graph without roots
is shown as a whole, and a graph with roots as far as they reach (`drawing_shows_module_iff`): beside a root, a cycle
that no root leads to is left out (`drawing_leaves_out_cycle`).
-/

namespace SassModules.ModuleGraph

/-- One module loads another, directly or through others; every module reaches itself. -/
def Reaches (g : ModuleGraph) : Path → Path → Prop :=
  Relation.ReflTransGen fun p q => ∃ e ∈ g.edges, e.source = p ∧ e.target = q

/-- Some row of the drawing is the line of the module. -/
def Shows (g : ModuleGraph) (l : Leaves) (q : Path) : Prop :=
  ∃ p ∈ g.starts, ∃ r ∈ g.rows l p, r.leaf = none ∧ r.subject p = q

instance (g : ModuleGraph) (l : Leaves) (q : Path) : Decidable (g.Shows l q) :=
  inferInstanceAs (Decidable (∃ p ∈ g.starts, ∃ r ∈ g.rows l p, r.leaf = none ∧ r.subject p = q))

/-! ## What a tree shows -/

section Reaching

variable {g : ModuleGraph} {l : Leaves} {start p q : Path} {e : Edge} {es : List Edge}

theorem IsTrail.reaches : ∀ {start : Path} {es : List Edge}, g.IsTrail start es → g.Reaches start (trailEnd start es)
  | _, [], _ => .refl
  | _, e :: es, h => by
    rw [trailEnd_cons]
    obtain ⟨hedge, hsource⟩ := mem_edgesOf.1 h.1
    exact .head ⟨e, hedge, hsource, rfl⟩ h.2.reaches

/-- A trail to a module that leaves no module twice, and not that module either. -/
structure IsFreshTrail (g : ModuleGraph) (start q : Path) (es : List Edge) : Prop where
  trail : g.IsTrail start es
  nodup : (es.map Edge.source).Nodup
  leads : trailEnd start es = q
  fresh : q ∉ es.map Edge.source

/-- A trail that leaves the module on its way is cut where it does. -/
theorem exists_fresh_of_mem (htrail : g.IsTrail start es) (hnodup : (es.map Edge.source).Nodup)
    (hq : q ∈ es.map Edge.source) : ∃ fs, g.IsFreshTrail start q fs := by
  obtain ⟨e, he, rfl⟩ := List.mem_map.1 hq
  obtain ⟨fs, rest, rfl⟩ := List.append_of_mem he
  obtain ⟨hfs, hrest⟩ := isTrail_append.1 htrail
  rw [List.map_append, List.map_cons] at hnodup
  obtain ⟨hnodup, -, hdisjoint⟩ := List.nodup_append.1 hnodup
  exact ⟨fs, hfs, hnodup, (mem_edgesOf.1 hrest.1).2.symm, fun hmem => hdisjoint _ hmem _ List.mem_cons_self rfl⟩

theorem IsFreshTrail.concat (h : g.IsFreshTrail start p es) (he : e ∈ g.edges) (hsource : e.source = p) :
    g.IsTrail start (es ++ [e]) ∧ ((es ++ [e]).map Edge.source).Nodup := by
  obtain ⟨htrail, hnodup, rfl, hfresh⟩ := h
  exact ⟨isTrail_concat.2 ⟨htrail, mem_edgesOf.2 ⟨he, hsource⟩⟩, nodup_sources_concat hnodup hfresh hsource⟩

/-- Whatever a module reaches, it reaches by a fresh trail. -/
theorem exists_fresh_of_reaches (h : g.Reaches start q) : ∃ es, g.IsFreshTrail start q es := by
  induction h with
  | refl => exact ⟨[], trivial, List.nodup_nil, rfl, List.not_mem_nil⟩
  | tail _ hstep ih =>
    obtain ⟨e, he, hsource, rfl⟩ := hstep
    obtain ⟨es, hes⟩ := ih
    obtain ⟨htrail, hnodup⟩ := hes.concat he hsource
    by_cases hq : e.target ∈ (es ++ [e]).map Edge.source
    · exact exists_fresh_of_mem htrail hnodup hq
    · exact ⟨es ++ [e], htrail, hnodup, trailEnd_concat, hq⟩

/-- A tree has a row about a module exactly when its start reaches the module. -/
theorem exists_row_iff_reaches (hg : g.HasModules) :
    (∃ r ∈ g.rows l start, r.leaf = none ∧ r.subject start = q) ↔ g.Reaches start q := by
  constructor
  · rintro ⟨r, hr, -, rfl⟩
    exact ((mem_rows hg).1 hr).trail.reaches
  · intro h
    obtain ⟨es, hes⟩ := exists_fresh_of_reaches h
    exact ⟨⟨es, none⟩, (mem_rows hg).2 ⟨hes.trail, hes.nodup, nofun⟩, rfl, hes.leads⟩

theorem Reaches.mem_nodes (hg : g.HasModules) (h : g.Reaches p q) (hp : p ∈ g.nodes) : q ∈ g.nodes := by
  cases h with
  | refl => exact hp
  | tail _ hstep =>
    obtain ⟨e, he, -, rfl⟩ := hstep
    exact hg.target e he

end Reaching

/-! ## Where trees start -/

section Starts

variable {g : ModuleGraph} {p q : Path}

theorem mem_loading : p ∈ g.nodes.filter (fun p => !(g.edgesOf p).isEmpty) ↔
    p ∈ g.nodes ∧ ∃ e ∈ g.edges, e.source = p := by
  simp [edgesOf]

/-- A module that is no root is loaded by a module. -/
theorem exists_edge_of_roots_eq_nil (hroots : g.roots = []) (hp : p ∈ g.nodes) : ∃ e ∈ g.edges, e.target = p := by
  by_contra hnone
  have hroot : p ∈ g.roots := mem_roots.2 ⟨hp, fun e he htarget => hnone ⟨e, he, htarget⟩⟩
  rw [hroots] at hroot
  cases hroot

/-- Trees start from the roots, or else from the modules that load something. -/
theorem mem_starts_iff (hg : g.HasModules) : p ∈ g.starts ↔
    p ∈ g.roots ∨ g.roots = [] ∧ ∃ e ∈ g.edges, e.source = p := by
  cases hroots : g.roots with
  | cons r rs =>
    rw [starts, hroots]
    simp
  | nil =>
    have hloading : p ∈ g.starts ↔ p ∈ g.nodes.filter (fun p => !(g.edgesOf p).isEmpty) := by
      rw [starts, hroots]
      cases hfilter : g.nodes.filter (fun p => !(g.edgesOf p).isEmpty) with
      | cons q qs => rfl
      | nil =>
        -- a module would be loaded by one that loads something, so there is none
        simp only [List.not_mem_nil, iff_false]
        intro hp
        obtain ⟨e, he, -⟩ := exists_edge_of_roots_eq_nil hroots hp
        have hsource := mem_loading.2 ⟨hg.source e he, e, he, rfl⟩
        rw [hfilter] at hsource
        cases hsource
    rw [hloading, mem_loading]
    simp only [List.not_mem_nil, true_and, false_or, and_iff_right_iff_imp]
    rintro ⟨e, he, rfl⟩
    exact hg.source e he

/-- A start reaches a module exactly when there is no root or a root reaches it. -/
theorem exists_start_iff (hg : g.HasModules) : (∃ p ∈ g.starts, g.Reaches p q) ↔
    q ∈ g.nodes ∧ (g.roots = [] ∨ ∃ p ∈ g.roots, g.Reaches p q) := by
  constructor
  · rintro ⟨p, hp, hreaches⟩
    refine ⟨hreaches.mem_nodes hg ((starts_sublist g).subset hp), ?_⟩
    rcases (mem_starts_iff hg).1 hp with hroot | ⟨hnone, -⟩
    · exact Or.inr ⟨p, hroot, hreaches⟩
    · exact Or.inl hnone
  · rintro ⟨hq, hnone | ⟨p, hroot, hreaches⟩⟩
    · obtain ⟨e, he, htarget⟩ := exists_edge_of_roots_eq_nil hnone hq
      exact ⟨e.source, (mem_starts_iff hg).2 (Or.inr ⟨hnone, e, he, rfl⟩), .single ⟨e, he, rfl, htarget⟩⟩
    · exact ⟨p, (mem_starts_iff hg).2 (Or.inl hroot), hreaches⟩

end Starts

/-- **A drawing shows what its roots reach.** Every line of a drawing is the line of a row, and a module has one exactly
when the graph has no root at all or a root reaches the module. -/
theorem drawing_shows_module_iff (as : List Addition) (v : Viewpoint) (s : Strokes) (l : Leaves) :
    let g := ofAdditions as
    g.drawing v s l = Text.join "\n" ([[]].intercalate
      (g.starts.map fun p => (g.rows l p).map (Row.line g l s v.display p))) ∧
    ∀ q, g.Shows l q ↔ q ∈ g.nodes ∧ (g.roots = [] ∨ ∃ p ∈ g.roots, g.Reaches p q) := by
  intro g
  have hg : g.HasModules := hasModules_ofAdditions as
  refine ⟨drawing_eq_rows (ordered_ofAdditions as) hg, fun q => ?_⟩
  rw [← exists_start_iff hg]
  simp only [Shows, exists_row_iff_reaches hg]

/-- Beside a module that nothing loads, two modules that load each other are left out: they are modules of the graph, and
the drawing has one line, without them. -/
theorem drawing_leaves_out_cycle :
    let g := ofAdditions [.node Sample.main, .edge ⟨Sample.theme, Sample.tools, .forward, none⟩,
      .edge ⟨Sample.tools, Sample.theme, .forward, none⟩]
    Sample.theme ∈ g.nodes ∧ ¬ g.Shows ⟨true, false⟩ Sample.theme ∧
      g.drawing Sample.viewpoint .box ⟨true, false⟩ = "main.scss".toList := by
  decide +kernel

end SassModules.ModuleGraph
