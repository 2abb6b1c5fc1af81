import SassModules.Proofs.Additions
import SassModules.Proofs.Rereading

/-!
# Graphs restored from their export

A path that is spelt without detours is read back from its text (`Path.ofText_text`), and so it is found again from what
is shown of it, up to what it resolves to: below the root the shown path is joined to the root, elsewhere it is the path
itself (`Viewpoint.placed_display`). The exported edges tell by their fields what they stand for, whatever their texts look
like. So a graph is restored from its export (`ModuleGraph.restore_toJson`), as long as a label that the export leaves
out can be told: an alias is always given, and a prefix that is given is not empty (`Edge.HasClearLabel`).
-/

namespace SassModules

/-! ## Paths and their texts -/

namespace Path

/-- A name that a path can go down to, written without slashes of either kind. -/
def IsFileName (n : Text) : Prop := n ∉ [[], ['.'], ['.', '.']] ∧ '/' ∉ n ∧ '\\' ∉ n

instance (n : Text) : Decidable (IsFileName n) :=
  inferInstanceAs (Decidable (n ∉ [[], ['.'], ['.', '.']] ∧ '/' ∉ n ∧ '\\' ∉ n))

/-- The path is written with one slash in front and goes straight down. -/
def IsStraight (p : Path) : Prop := p.anchor = .root ∧ ∀ n ∈ p.names, IsFileName n

instance (p : Path) : Decidable p.IsStraight :=
  inferInstanceAs (Decidable (p.anchor = .root ∧ ∀ n ∈ p.names, IsFileName n))

section Texts

variable {p : Path} {ns : List Text} {c : Char}

theorem mem_join (h : c ∈ Text.join "/" ns) : c = '/' ∨ ∃ n ∈ ns, c ∈ n := by
  induction ns with
  | nil => cases h
  | cons n ns ih =>
    cases ns with
    | nil => exact Or.inr ⟨n, List.mem_cons_self, by simpa [Text.join] using h⟩
    | cons m ns =>
      rw [Text.join, List.intercalate_cons_cons, List.append_assoc, List.mem_append, List.mem_append] at h
      rcases h with h | h | h
      · exact Or.inr ⟨n, List.mem_cons_self, h⟩
      · exact Or.inl (List.mem_singleton.1 h)
      · rcases ih h with h | ⟨k, hk, hck⟩
        · exact Or.inl h
        · exact Or.inr ⟨k, List.mem_cons_of_mem _ hk, hck⟩

/-- A text without backslashes is shown as it is. -/
theorem replaceChar_text (h : ∀ n ∈ p.names, IsFileName n) : p.text.replaceChar '\\' '/' = p.text := by
  have hnone : '\\' ∉ p.text := by
    unfold text
    split_ifs
    · decide
    · rw [List.mem_append, not_or]
      constructor
      · cases p.anchor <;> decide
      · intro hmem
        rcases mem_join hmem with hslash | ⟨n, hn, hmem⟩
        · revert hslash
          decide
        · exact (h n hn).2.2 hmem
  have hkeep : ∀ c ∈ p.text, (if c = '\\' then '/' else c) = c := fun c hc => if_neg (ne_of_mem_of_not_mem hc hnone)
  rw [Text.replaceChar, List.map_congr_left hkeep, List.map_id']

theorem splitOn_slash_cons (s : Text) : ('/' :: s).splitOn '/' = [] :: s.splitOn '/' := by
  rw [List.splitOn, List.splitOnP_cons_eq_if_modifyHead]
  simp [List.splitOn]

/-- A joined text of names does not start with a slash. -/
theorem takeWhile_slash_join (h : ∀ n ∈ ns, IsFileName n) : (Text.join "/" ns).takeWhile (· == '/') = [] := by
  cases ns with
  | nil => rfl
  | cons n ns =>
    obtain ⟨hdots, hslash, -⟩ := h n List.mem_cons_self
    cases n with
    | nil => simp at hdots
    | cons c n =>
      have hc : c ≠ '/' := fun heq => hslash (heq ▸ List.mem_cons_self)
      cases ns <;> simp [Text.join, hc]

/-- Names are read back from the text that joins them, behind the slashes of any anchor. -/
theorem ofText_append_join (a : Anchor) (hne : ns ≠ []) (h : ∀ n ∈ ns, IsFileName n) :
    ofText (a.text ++ Text.join "/" ns) = ⟨a, ns⟩ := by
  have hslashes : ((a.text ++ Text.join "/" ns).takeWhile (· == '/')).length = a.slashes := by
    rw [List.takeWhile_append_of_pos (fun c hc => by simp [List.eq_of_mem_replicate hc]), takeWhile_slash_join h,
      List.append_nil, Anchor.text, List.length_replicate]
  have hsplit : (Text.join "/" ns).splitOn '/' = ns := List.splitOn_intercalate '/' (fun n hn => (h n hn).2.1) hne
  have hnames : ns.filter (fun n => n != [] && n != ['.']) = ns := by
    refine List.filter_eq_self.2 fun n hn => ?_
    have hdots := (h n hn).1
    simp only [List.mem_cons, not_or] at hdots
    simp [hdots.1, hdots.2.1]
  rw [ofText, hslashes]
  cases a <;> simp [Anchor.text, Anchor.slashes, splitOn_slash_cons, anchorOf, hsplit, hnames, List.replicate]

/-- A path of file names is read back from its text. -/
theorem ofText_text (h : ∀ n ∈ p.names, IsFileName n) : ofText p.text = p := by
  obtain ⟨a, ns⟩ := p
  by_cases hne : ns = []
  · subst hne
    cases a <;> rfl
  · rw [text, if_neg fun hempty => hne hempty.2]
    exact ofText_append_join a hne h

/-- Nothing is collapsed where no name is `..`. -/
theorem foldl_collapseStep {a : Anchor} : ∀ (ns kept : List Text), ['.', '.'] ∉ ns →
    ns.foldl (collapseStep a) kept = ns.reverse ++ kept
  | [], _, _ => rfl
  | n :: ns, kept, h => by
    obtain ⟨hn, hns⟩ := not_or.1 (mt List.mem_cons.2 h)
    rw [List.foldl_cons, foldl_collapseStep ns _ hns, collapseStep.eq_def, if_neg (Ne.symm hn)]
    simp

theorem IsStraight.canonical (h : p.IsStraight) (d : Disk) : d.canonical p = p := by
  have hdots : ['.', '.'] ∉ p.names := fun hmem => (h.2 _ hmem).1 (by decide)
  obtain ⟨a, ns⟩ := p
  obtain rfl : a = .root := h.1
  show Path.normalize ⟨.root, ns⟩ = _
  rw [Path.normalize, foldl_collapseStep ns [] hdots, List.append_nil, List.reverse_reverse]

end Texts

end Path

/-! ## Paths as they are shown -/

namespace Viewpoint

/-- The path that a shown path stands for, seen from the root. -/
def placed (v : Viewpoint) (t : Text) : Path := ((v.resolve v.root).getD v.root).join (Path.ofText t)

/-- The path that is told by what is shown of a path: below the root, what it resolves to. -/
def settle (v : Viewpoint) (p : Path) : Path := if (v.below? p v.root).isSome then (v.resolve p).getD p else p

/-- The path can be written so that it is read back, and so can what it resolves to below the root. -/
def IsClear (v : Viewpoint) (p : Path) : Prop :=
  p.IsStraight ∧ ∀ q, v.below? p v.root = some q → ∀ n ∈ q.names, Path.IsFileName n

variable {v : Viewpoint} {d : Disk} {root p q : Path}

/-- What is shown below the root is the rest of what the path resolves to. -/
theorem exists_of_below? (h : v.below? p root = some q) :
    ∃ p' dir, v.resolve p = some p' ∧ v.resolve root = some dir ∧ dir.join q = p' ∧
      p'.anchor = dir.anchor ∧ p'.names = dir.names ++ q.names := by
  obtain ⟨p', hp', h⟩ := Option.bind_eq_some_iff.1 h
  obtain ⟨dir, hdir, h⟩ := Option.bind_eq_some_iff.1 h
  refine ⟨p', dir, hp', hdir, ?_⟩
  unfold Path.below? at h
  split at h
  · rename_i hanchor
    obtain ⟨ns, hns, rfl⟩ := Option.map_eq_some_iff.1 h
    rw [List.isPrefixOf?_eq_some_iff_append_eq] at hns
    refine ⟨?_, hanchor, hns.symm⟩
    obtain ⟨a, names⟩ := p'
    obtain rfl : a = dir.anchor := hanchor
    exact congrArg (Path.mk dir.anchor) hns
  · cases h

/-- A path is found again from what is shown of it, up to resolving. -/
theorem placed_display (hbase : v.base = v.root) (hp : v.IsClear p) : v.placed (v.display p) = v.settle p := by
  have hshown : v.display p = ((v.below? p v.root).getD p).text.replaceChar '\\' '/' := by
    unfold display
    rw [hbase]
    cases v.below? p v.root <;> rfl
  rw [hshown, placed, settle]
  cases hbelow : v.below? p v.root with
  | none =>
    have habsolute : p.isAbsolute = true := by simp [Path.isAbsolute, hp.1.1]
    rw [Option.getD_none, Path.replaceChar_text hp.1.2, Path.ofText_text hp.1.2, Path.join, if_pos habsolute]
    rfl
  | some q =>
    obtain ⟨p', dir, hp', hdir, hjoin, -⟩ := exists_of_below? hbelow
    have hnames := hp.2 q hbelow
    rw [Option.getD_some, Path.replaceChar_text hnames, Path.ofText_text hnames, hdir, hp', Option.getD_some, hjoin]
    rfl

/-- Two paths that resolve to one below the root are shown alike. -/
theorem display_congr (hbase : v.base = v.root) (hpq : v.resolve p = v.resolve q)
    (hbelow : (v.below? p v.root).isSome) : v.display p = v.display q := by
  have hsame : ∀ dir, v.below? p dir = v.below? q dir := fun dir => by rw [below?, below?, hpq]
  obtain ⟨r, hr⟩ := Option.isSome_iff_exists.1 hbelow
  have hr' := hr
  rw [hsame] at hr'
  unfold display
  rw [hbase, hr, hr']
  rfl

theorem resolve_of (hp : p.IsStraight) (h : (of d root none).resolve p = some q) : q = p := by
  have hresolve : d.resolve p = .ok q := by
    revert h
    show (d.resolve p).toOption = some q → _
    cases d.resolve p <;> simp [Except.toOption]
  unfold Disk.resolve at hresolve
  split at hresolve
  · cases hresolve
  · rw [← Except.ok.inj hresolve, hp.canonical]

/-- On a disk without links, straight paths are found again as they are. -/
theorem settle_of (hp : p.IsStraight) : (of d root none).settle p = p := by
  unfold settle
  split_ifs
  · cases hq : (of d root none).resolve p with
    | none => rfl
    | some q => exact resolve_of hp hq
  · rfl

theorem isClear_of (hp : p.IsStraight) : (of d root none).IsClear p := by
  refine ⟨hp, fun q hq n hn => ?_⟩
  obtain ⟨p', dir, hp', -, -, -, hnames⟩ := exists_of_below? hq
  obtain rfl := resolve_of hp hp'
  exact hp.2 n (hnames ▸ List.mem_append_right _ hn)

end Viewpoint

/-! ## Graphs -/

namespace Json

/-- The items of an array. -/
def elements : Json → List Json
  | .array items => items
  | _ => []

/-- The text of a field. -/
def textOf? (name : String) (j : Json) : Option Text := (j.field? name.toList).bind text?

end Json

/-- What an export leaves out of the label can be told: an alias is given, and a prefix that is given is not empty. -/
def Edge.HasClearLabel (e : Edge) : Prop := (e.kind = .use → e.label ≠ none) ∧ (e.kind = .forward → e.label ≠ some [])

instance (e : Edge) : Decidable e.HasClearLabel :=
  inferInstanceAs (Decidable ((e.kind = .use → e.label ≠ none) ∧ (e.kind = .forward → e.label ≠ some [])))

/-- The edge between two modules that an exported edge stands for. -/
def Edge.ofJson? (place : Text → Path) (j : Json) : Option Edge := do
  let source ← j.textOf? "source"
  let target ← j.textOf? "target"
  let kind ← j.textOf? "kind"
  if kind = EdgeKind.use.text then some ⟨place source, place target, .use, some ((j.textOf? "alias").getD [])⟩
  else some ⟨place source, place target, .forward, j.textOf? "prefix"⟩

/-- The mention that an exported edge with a mark stands for. -/
def Mention.ofJson? (place : Text → Path) (mark : String) (j : Json) : Option Mention := do
  let source ← j.textOf? "source"
  let modulePath ← j.textOf? "target"
  let _ ← j.field? mark.toList
  some ⟨place source, modulePath⟩

/-- The edge with its modules at other paths. -/
def Edge.relocate (f : Path → Path) (e : Edge) : Edge := { e with source := f e.source, target := f e.target }

/-- The mention with its module at another path. -/
def Mention.relocate (f : Path → Path) (m : Mention) : Mention := { m with source := f m.source }

namespace ModuleGraph

/-- The graph with its modules at other paths. -/
def relocate (f : Path → Path) (g : ModuleGraph) : ModuleGraph where
  nodes := g.nodes.map f
  edges := g.edges.map (Edge.relocate f)
  missing := g.missing.map (Mention.relocate f)
  builtins := g.builtins.map (Mention.relocate f)

/-- The graph that an exported value stands for. -/
def restore (place : Text → Path) (j : Json) : ModuleGraph :=
  let nodes := ((j.field? "nodes".toList).map Json.elements).getD []
  let edges := ((j.field? "edges".toList).map Json.elements).getD []
  { nodes := nodes.filterMap fun n => n.text?.map place
    edges := edges.filterMap (Edge.ofJson? place)
    missing := edges.filterMap (Mention.ofJson? place "missing")
    builtins := edges.filterMap (Mention.ofJson? place "builtin") }

/-- The marks of exported edges that lead to no module. -/
def marks : List String := ["missing", "builtin"]

section Entries

variable {place : Text → Path} {display : Path → Text} {e : Edge} {m : Mention} {mark other : String}

theorem mem_marks : mark ∈ marks ↔ mark = "missing" ∨ mark = "builtin" := by simp [marks]

theorem labelField_cons (e : Edge) {c : Char} {l : Text} (h : e.label = some (c :: l)) :
    labelField e = [(if e.kind = .use then "alias".toList else "prefix".toList, .string (c :: l))] := by
  obtain ⟨source, target, kind, label⟩ := e
  subst h
  cases kind <;> rfl

/-- An exported edge tells the edge again, between the paths that are read from what is shown. -/
theorem ofJson?_edgeJson (hlabel : e.HasClearLabel) :
    Edge.ofJson? place (edgeJson display e) = some (e.relocate fun p => place (display p)) := by
  obtain ⟨source, target, kind, label⟩ := e
  obtain ⟨hused, hforwarded⟩ := hlabel
  rcases label with _ | _ | ⟨c, l⟩
  · cases kind with
    | use => exact absurd rfl (hused rfl)
    | forward => rfl
  · cases kind with
    | use => rfl
    | forward => exact absurd rfl (hforwarded rfl)
  · rw [edgeJson, labelField_cons _ rfl]
    cases kind <;> rfl

theorem ofJson?_mentionJson (hmark : mark ∈ marks) : Edge.ofJson? place (mentionJson display mark m) = none := by
  rcases mem_marks.1 hmark with rfl | rfl <;> rfl

/-- An exported mention tells the mention again. -/
theorem mentionOfJson?_mentionJson (hmark : mark ∈ marks) :
    Mention.ofJson? place mark (mentionJson display mark m) = some (m.relocate fun p => place (display p)) := by
  rcases mem_marks.1 hmark with rfl | rfl <;> rfl

theorem mentionOfJson?_eq_none {j : Json} (h : j.field? mark.toList = none) : Mention.ofJson? place mark j = none := by
  simp [Mention.ofJson?, h]

theorem field?_edgeJson (hmark : mark ∈ marks) : (edgeJson display e).field? mark.toList = none := by
  obtain ⟨source, target, kind, label⟩ := e
  rcases label with _ | _ | ⟨c, l⟩
  · rcases mem_marks.1 hmark with rfl | rfl <;> rfl
  · rcases mem_marks.1 hmark with rfl | rfl <;> rfl
  · rw [edgeJson, labelField_cons _ rfl]
    rcases mem_marks.1 hmark with rfl | rfl <;> cases kind <;> rfl

theorem field?_mentionJson (hmark : mark ∈ marks) (hother : other ∈ marks) (hne : mark ≠ other) :
    (mentionJson display other m).field? mark.toList = none := by
  rcases mem_marks.1 hmark with rfl | rfl <;> rcases mem_marks.1 hother with rfl | rfl
  · exact absurd rfl hne
  · rfl
  · rfl
  · exact absurd rfl hne

end Entries

section Exports

variable {g : ModuleGraph} {v : Viewpoint} {place : Text → Path} {mark other : String}

/-- The edges of an export, those between modules first. -/
def exportedEdges (g : ModuleGraph) (v : Viewpoint) : List Json :=
  g.edges.map (edgeJson v.display) ++ g.missing.map (mentionJson v.display "missing") ++
    g.builtins.map (mentionJson v.display "builtin")

theorem edges_exported (hlabels : ∀ e ∈ g.edges, e.HasClearLabel) :
    (g.exportedEdges v).filterMap (Edge.ofJson? place) = g.edges.map (Edge.relocate fun p => place (v.display p)) := by
  have hedges : (g.edges.map (edgeJson v.display)).filterMap (Edge.ofJson? place) =
      g.edges.map (Edge.relocate fun p => place (v.display p)) :=
    filterMap_map_eq_map fun e he => ofJson?_edgeJson (hlabels e he)
  have hmentions : ∀ ms : List Mention, ∀ mark ∈ marks,
      (ms.map (mentionJson v.display mark)).filterMap (Edge.ofJson? place) = [] := fun ms mark hmark =>
    filterMap_map_eq_nil fun _ => ofJson?_mentionJson hmark
  rw [exportedEdges, List.filterMap_append, List.filterMap_append, hedges, hmentions _ "missing" (by decide),
    hmentions _ "builtin" (by decide), List.append_nil, List.append_nil]

/-- Of exported mentions, those with the mark are read. -/
theorem filterMap_mentionJson {ms : List Mention} (hmark : mark ∈ marks) (hother : other ∈ marks) :
    (ms.map (mentionJson v.display other)).filterMap (Mention.ofJson? place mark) =
      if mark = other then ms.map (Mention.relocate fun p => place (v.display p)) else [] := by
  split_ifs with heq
  · subst heq
    exact filterMap_map_eq_map fun m _ => mentionOfJson?_mentionJson hmark
  · exact filterMap_map_eq_nil fun _ => mentionOfJson?_eq_none (field?_mentionJson hmark hother heq)

theorem mentions_exported (hmark : mark ∈ marks) :
    (g.exportedEdges v).filterMap (Mention.ofJson? place mark) =
      (if mark = "missing" then g.missing.map (Mention.relocate fun p => place (v.display p)) else []) ++
        (if mark = "builtin" then g.builtins.map (Mention.relocate fun p => place (v.display p)) else []) := by
  have hedges : (g.edges.map (edgeJson v.display)).filterMap (Mention.ofJson? place mark) = [] :=
    filterMap_map_eq_nil fun _ => mentionOfJson?_eq_none (field?_edgeJson hmark)
  rw [exportedEdges, List.filterMap_append, List.filterMap_append, hedges, List.nil_append,
    filterMap_mentionJson hmark (by decide), filterMap_mentionJson hmark (by decide)]

/-- A graph is restored from its export, with its modules at the paths that are read from what is shown of them. -/
theorem restore_toJson (hlabels : ∀ e ∈ g.edges, e.HasClearLabel) :
    restore place (g.toJson v ⟨true, true⟩) = g.relocate fun p => place (v.display p) := by
  have hnodes : (g.nodes.map fun p => Json.string (v.display p)).filterMap (fun n => n.text?.map place) =
      g.nodes.map fun p => place (v.display p) := filterMap_map_eq_map fun p _ => rfl
  show ModuleGraph.mk ((g.nodes.map fun p => Json.string (v.display p)).filterMap _)
    ((g.exportedEdges v).filterMap _) ((g.exportedEdges v).filterMap _) ((g.exportedEdges v).filterMap _) = _
  rw [hnodes, edges_exported hlabels, mentions_exported (by decide), mentions_exported (by decide)]
  simp [relocate]

/-- Only where its modules are matters for a graph at other paths. -/
theorem relocate_congr {f f' : Path → Path} (hg : g.HasModules) (h : ∀ p ∈ g.nodes, f p = f' p) :
    g.relocate f = g.relocate f' := by
  have hnodes : g.nodes.map f = g.nodes.map f' := List.map_congr_left h
  have hedges : g.edges.map (Edge.relocate f) = g.edges.map (Edge.relocate f') := by
    refine List.map_congr_left fun e he => ?_
    rw [Edge.relocate, Edge.relocate, h _ (hg.source e he), h _ (hg.target e he)]
  have hmissing : g.missing.map (Mention.relocate f) = g.missing.map (Mention.relocate f') := by
    refine List.map_congr_left fun m hm => ?_
    rw [Mention.relocate, Mention.relocate, h _ (hg.missing m hm)]
  have hbuiltins : g.builtins.map (Mention.relocate f) = g.builtins.map (Mention.relocate f') := by
    refine List.map_congr_left fun m hm => ?_
    rw [Mention.relocate, Mention.relocate, h _ (hg.builtins m hm)]
  rw [relocate, relocate, hnodes, hedges, hmissing, hbuiltins]

theorem relocate_self {f : Path → Path} (hg : g.HasModules) (h : ∀ p ∈ g.nodes, f p = p) : g.relocate f = g := by
  have hid : g.relocate f = g.relocate id := relocate_congr hg h
  rw [hid]
  have hedge : Edge.relocate id = id := rfl
  have hmention : Mention.relocate id = id := rfl
  rw [relocate, hedge, hmention, List.map_id, List.map_id, List.map_id, List.map_id]

theorem withoutNumbers_edgeJson (display : Path → Text) (e : Edge) : (edgeJson display e).WithoutNumbers := by
  refine .object fun f hf => ?_
  obtain ⟨source, target, kind, label⟩ := e
  rcases label with _ | _ | ⟨c, l⟩ <;> simp [labelField] at hf
  · rcases hf with rfl | rfl | rfl <;> exact .string _
  · rcases hf with rfl | rfl | rfl <;> exact .string _
  · rcases hf with rfl | rfl | rfl | rfl <;> exact .string _

theorem withoutNumbers_mentionJson (display : Path → Text) (mark : String) (m : Mention) :
    (mentionJson display mark m).WithoutNumbers := by
  refine .object fun f hf => ?_
  simp only [List.mem_cons, List.not_mem_nil, or_false] at hf
  rcases hf with rfl | rfl | rfl
  · exact .string _
  · exact .string _
  · exact .bool true

/-- No number stands in an export, so that its text can be read back. -/
theorem withoutNumbers_toJson (g : ModuleGraph) (v : Viewpoint) (l : Leaves) : (g.toJson v l).WithoutNumbers := by
  refine .object fun f hf => ?_
  simp only [List.mem_cons, List.not_mem_nil, or_false] at hf
  rcases hf with rfl | rfl
  · refine .array fun j hj => ?_
    obtain ⟨p, -, rfl⟩ := List.mem_map.1 hj
    exact .string _
  · refine .array fun j hj => ?_
    simp only [List.mem_append, List.mem_ite_nil_right, List.mem_map] at hj
    rcases hj with (⟨e, -, rfl⟩ | ⟨-, m, -, rfl⟩) | ⟨-, m, -, rfl⟩
    · exact withoutNumbers_edgeJson _ e
    · exact withoutNumbers_mentionJson _ _ m
    · exact withoutNumbers_mentionJson _ _ m

end Exports

end ModuleGraph

/-! ## Recorded additions -/

/-- The edges that an addition adds. -/
def Addition.edges : Addition → List Edge
  | .edge e => [e]
  | _ => []

namespace ModuleGraph

variable {as bs : List Addition} {v : Viewpoint}

theorem hasClearLabel_of_mem (h : ∀ a ∈ as, ∀ e ∈ a.edges, e.HasClearLabel) :
    ∀ e ∈ (ofAdditions as).edges, e.HasClearLabel := fun e he =>
  h _ (mem_edges_ofAdditions.1 he) e List.mem_cons_self

/-- What is read from the text of an export restores the graph, up to resolving. -/
theorem restore_ofText? (hbase : v.base = v.root) (hpaths : ∀ a ∈ as, ∀ p ∈ a.modules, v.IsClear p)
    (hlabels : ∀ a ∈ as, ∀ e ∈ a.edges, e.HasClearLabel) (indent : Option Nat) :
    (Json.ofText? (((ofAdditions as).toJson v ⟨true, true⟩).render indent)).map (restore v.placed) =
      some ((ofAdditions as).relocate v.settle) := by
  rw [Json.ofText?_render (withoutNumbers_toJson _ _ _), Option.map_some, restore_toJson (hasClearLabel_of_mem hlabels)]
  refine congrArg some (relocate_congr (hasModules_ofAdditions as) fun p hp => ?_)
  obtain ⟨a, ha, hp⟩ := mem_nodes_ofAdditions.1 hp
  exact Viewpoint.placed_display hbase (hpaths a ha p hp)

theorem relocate_settle (h : ∀ a ∈ as, ∀ p ∈ a.modules, v.settle p = p) :
    (ofAdditions as).relocate v.settle = ofAdditions as := by
  refine relocate_self (hasModules_ofAdditions as) fun p hp => ?_
  obtain ⟨a, ha, hp⟩ := mem_nodes_ofAdditions.1 hp
  exact h a ha p hp

/-- Modules under other names of the same files below the root are exported alike. -/
theorem toJson_relocate {g : ModuleGraph} {f : Path → Path} (hg : g.HasModules) (hbase : v.base = v.root)
    (h : ∀ p ∈ g.nodes, v.resolve p = v.resolve (f p) ∧ (v.below? p v.root).isSome) (l : Leaves) :
    (g.relocate f).toJson v l = g.toJson v l := by
  have hshown : ∀ p ∈ g.nodes, v.display (f p) = v.display p := fun p hp =>
    (Viewpoint.display_congr hbase (h p hp).1 (h p hp).2).symm
  have hnodes : (g.nodes.map f).map (fun p => Json.string (v.display p)) =
      g.nodes.map fun p => Json.string (v.display p) := by
    rw [List.map_map]
    exact List.map_congr_left fun p hp => congrArg Json.string (hshown p hp)
  have hedges : (g.edges.map (Edge.relocate f)).map (edgeJson v.display) = g.edges.map (edgeJson v.display) := by
    rw [List.map_map]
    refine List.map_congr_left fun e he => ?_
    show edgeJson v.display (e.relocate f) = edgeJson v.display e
    simp only [edgeJson, Edge.relocate, labelField, hshown _ (hg.source e he), hshown _ (hg.target e he)]
  have hmentions : ∀ (mark : String) (ms : List Mention), (∀ m ∈ ms, m.source ∈ g.nodes) →
      (ms.map (Mention.relocate f)).map (mentionJson v.display mark) = ms.map (mentionJson v.display mark) := by
    intro mark ms hms
    rw [List.map_map]
    refine List.map_congr_left fun m hm => ?_
    show mentionJson v.display mark (m.relocate f) = mentionJson v.display mark m
    simp only [mentionJson, Mention.relocate, hshown _ (hms m hm)]
  simp only [toJson, relocate, hnodes, hedges, hmentions _ _ hg.missing, hmentions _ _ hg.builtins]

/-! ## A graph around a root -/

namespace Sample

def library : Path := ⟨.root, ["lib".toList]⟩

/-- Modules of the same name inside and outside the root, the root itself, and a missing module that looks like one of
them. -/
def spread : List Addition :=
  [.edge ⟨main, library.child "main.scss".toList, .use, some []⟩,
   .edge ⟨library.child "main.scss".toList, main, .forward, none⟩, .node library,
   .missing ⟨main, "main.scss".toList⟩, .builtin ⟨main, "main.scss".toList⟩]

end Sample

end ModuleGraph

end SassModules
