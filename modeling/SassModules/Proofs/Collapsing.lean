import SassModules.Resolution
import SassModules.Proofs.Lists

/-!
# Collapsed paths

What it means to collapse a path by its names alone, told by rewriting: a name and a `..` behind it may be left out, and
so may a `..` directly below a root (`Path.Shortens`). A path is collapsed when nothing more can be left out
(`Path.IsCollapsed`), and there is exactly one way to end there, the one that `Path.normalize` takes
(`Path.isCollapsed_iff`): rewriting does not change what is made of a path, and what is made of it is reached by rewriting.
-/

namespace SassModules.Path

/-- The name of the directory above. -/
abbrev up : Text := ['.', '.']

/-- Names below an anchor from which a way down and up again, or a way up from a root, is left out. -/
inductive Shortens (a : Anchor) : List Text → List Text → Prop
  | undo (before after : List Text) {n : Text} (hn : n ≠ up) : Shortens a (before ++ n :: up :: after) (before ++ after)
  | top (after : List Text) (ha : a ≠ .relative) : Shortens a (up :: after) after

/-- The second path is the first one with everything left out that can be. -/
structure IsCollapsed (p q : Path) : Prop where
  anchor_eq : q.anchor = p.anchor
  shortened : Relation.ReflTransGen (Shortens p.anchor) p.names q.names
  short : ∀ ns, ¬ Shortens p.anchor q.names ns

section Collapsing

variable {a : Anchor} {ns ms kept : List Text} {p q : Path} {n : Text}

theorem collapseStep_of_ne (h : n ≠ up) : collapseStep a kept n = n :: kept := if_neg h

/-- Going down and up again is no step. -/
theorem collapseStep_undo (h : n ≠ up) : collapseStep a (collapseStep a kept n) up = kept := by
  rw [collapseStep_of_ne h]
  simp [collapseStep, h]

/-- Names that are left out make no difference. -/
theorem Shortens.foldl_eq (h : Shortens a ns ms) : ns.foldl (collapseStep a) [] = ms.foldl (collapseStep a) [] := by
  cases h with
  | undo before after hn =>
    rw [List.foldl_append, List.foldl_append, List.foldl_cons, List.foldl_cons, collapseStep_undo hn]
  | top after ha =>
    rw [List.foldl_cons]
    simp [collapseStep, ha]

/-- One step of collapsing leaves names out or keeps them, in front of whatever follows. -/
theorem shortens_collapseStep (a : Anchor) (kept : List Text) (n : Text) (ns : List Text) :
    Relation.ReflTransGen (Shortens a) (kept.reverse ++ n :: ns) ((collapseStep a kept n).reverse ++ ns) := by
  by_cases hn : n = up
  · subst hn
    cases kept with
    | nil =>
      by_cases ha : a = .relative
      · simp only [collapseStep, ha, if_true, List.reverse_nil, List.nil_append, List.reverse_singleton]
        exact .refl
      · simp only [collapseStep, ha, if_true, if_false, List.reverse_nil, List.nil_append]
        exact .single (.top ns ha)
    | cons k ks =>
      by_cases hk : k = up
      · simp only [collapseStep, hk, if_true]
        simpa using Relation.ReflTransGen.refl
      · simp only [collapseStep, hk, if_true, if_false, List.reverse_cons, List.append_assoc, List.singleton_append]
        exact .single (.undo ks.reverse ns hk)
  · rw [collapseStep_of_ne hn]
    simpa using Relation.ReflTransGen.refl

/-- What is made of names is reached by leaving out. -/
theorem shortens_foldl (a : Anchor) : ∀ (ns kept : List Text),
    Relation.ReflTransGen (Shortens a) (kept.reverse ++ ns) (ns.foldl (collapseStep a) kept).reverse
  | [], kept => by simpa using Relation.ReflTransGen.refl
  | n :: ns, kept => (shortens_collapseStep a kept n ns).trans (shortens_foldl a ns (collapseStep a kept n))

/-- Steps up only in front, and none below a root. -/
def StartsUp (a : Anchor) (ns : List Text) : Prop :=
  ∃ k rest, ns = List.replicate k up ++ rest ∧ up ∉ rest ∧ (a ≠ .relative → k = 0)

theorem StartsUp.collapseStep (h : StartsUp a kept.reverse) (n : Text) : StartsUp a (collapseStep a kept n).reverse := by
  obtain ⟨k, rest, hkept, hrest, hroot⟩ := h
  by_cases hn : n = up
  · subst hn
    rcases List.eq_nil_or_concat rest with rfl | ⟨rest, m, rfl⟩
    · -- only steps up so far: one more, unless there is nothing above
      have hkept : kept = List.replicate k up := by
        rw [← List.reverse_reverse kept, hkept, List.append_nil, List.reverse_replicate]
      subst hkept
      by_cases ha : a = .relative
      · have hstep : Path.collapseStep a (List.replicate k up) up = List.replicate (k + 1) up := by
          cases k <;> simp [Path.collapseStep, ha, List.replicate_succ]
        exact ⟨k + 1, [], by rw [hstep, List.reverse_replicate, List.append_nil], List.not_mem_nil, fun h => absurd ha h⟩
      · obtain rfl := hroot ha
        exact ⟨0, [], by simp [Path.collapseStep, ha], List.not_mem_nil, fun _ => rfl⟩
    · have hm : m ≠ up := fun h => hrest (by simp [h])
      have hkept : kept = m :: (List.replicate k up ++ rest).reverse := by
        rw [← List.reverse_reverse kept, hkept]
        simp
      refine ⟨k, rest, ?_, fun h => hrest (by simp [h]), hroot⟩
      simp [hkept, Path.collapseStep, hm]
  · refine ⟨k, rest ++ [n], ?_, ?_, hroot⟩
    · rw [collapseStep_of_ne hn, List.reverse_cons, hkept, List.append_assoc]
    · simp [hrest, Ne.symm hn]

theorem startsUp_foldl : ∀ (ns kept : List Text), StartsUp a kept.reverse →
    StartsUp a (ns.foldl (collapseStep a) kept).reverse
  | [], _, h => h
  | n :: ns, _, h => startsUp_foldl ns _ (h.collapseStep n)

/-- Where steps up stand only in front, nothing can be left out. -/
theorem StartsUp.not_shortens (h : StartsUp a ns) (ms : List Text) : ¬ Shortens a ns ms := by
  obtain ⟨k, rest, rfl, hrest, hroot⟩ := h
  intro hstep
  generalize hns : List.replicate k up ++ rest = ns at hstep
  cases hstep with
  | undo before after hn =>
    rcases List.append_eq_append_iff.1 hns with ⟨ys, -, hrest'⟩ | ⟨ys, hups, hafter⟩
    · exact hrest (hrest' ▸ by simp)
    · -- the name stands among the steps up in front
      cases ys with
      | nil =>
        rw [List.nil_append] at hafter
        exact hrest (hafter ▸ by simp)
      | cons y ys =>
        obtain ⟨rfl, -⟩ := List.cons.inj hafter
        refine hn (List.eq_of_mem_replicate (n := k) ?_)
        rw [hups]
        simp
  | top after ha =>
    rw [hroot ha, List.replicate_zero, List.nil_append] at hns
    exact hrest (hns ▸ List.mem_cons_self)

/-- **Collapsing.** There is one collapsed path, and it is what normalizing gives. -/
theorem isCollapsed_iff : IsCollapsed p q ↔ q = p.normalize := by
  constructor
  · rintro ⟨hanchor, hshortened, hshort⟩
    have hsame : ∀ {ns ms}, Relation.ReflTransGen (Shortens p.anchor) ns ms →
        ns.foldl (collapseStep p.anchor) [] = ms.foldl (collapseStep p.anchor) [] := by
      intro ns ms h
      induction h with
      | refl => rfl
      | tail _ hstep ih => exact ih.trans hstep.foldl_eq
    -- nothing is left out of the names of `q`, so that collapsing them again gives them back
    have hself : q.names = (q.names.foldl (collapseStep p.anchor) []).reverse := by
      rcases Relation.ReflTransGen.cases_head (shortens_foldl p.anchor q.names []) with h | ⟨ns, hstep, -⟩
      · simpa using h
      · exact absurd hstep (hshort ns)
    obtain ⟨a, ns⟩ := q
    obtain rfl : a = p.anchor := hanchor
    rw [normalize, hsame hshortened]
    exact congrArg (Path.mk p.anchor) hself
  · rintro rfl
    refine ⟨rfl, shortens_foldl p.anchor p.names [], ?_⟩
    exact (startsUp_foldl p.names [] ⟨0, [], rfl, List.not_mem_nil, fun _ => rfl⟩).not_shortens

end Collapsing

/-! ## Texts seen from a directory -/

/-- The names in a text, between its slashes. -/
def pieces (t : Text) : List Text := (t.splitOn '/').filter fun n => n ≠ [] ∧ n ≠ ['.']

/-- A text as a path seen from a directory: one that starts with a slash does not depend on the directory, and exactly two
slashes are a root of their own. -/
def under (dir : Path) (t : Text) : Path :=
  if "//".toList <+: t ∧ ¬ "///".toList <+: t then ⟨.doubleRoot, pieces t⟩
  else if "/".toList <+: t then ⟨.root, pieces t⟩
  else ⟨dir.anchor, dir.names ++ pieces t⟩

theorem under_eq (dir : Path) (t : Text) : dir.under t = dir.join (ofText t) := by
  have hpieces : (t.splitOn '/').filter (fun n => n != [] && n != ['.']) = pieces t :=
    List.filter_congr fun n _ => by simp [bne, beq_eq_decide]
  rw [ofText, hpieces]
  unfold under
  rcases t with _ | ⟨c₁, t⟩
  · rfl
  by_cases h₁ : c₁ = '/'
  · subst h₁
    rcases t with _ | ⟨c₂, t⟩
    · rfl
    by_cases h₂ : c₂ = '/'
    · subst h₂
      rcases t with _ | ⟨c₃, t⟩
      · rfl
      by_cases h₃ : c₃ = '/'
      · simp [h₃, join, isAbsolute, anchorOf]
      · simp [h₃, join, isAbsolute, anchorOf, Ne.symm h₃]
    · simp [h₂, join, isAbsolute, anchorOf, Ne.symm h₂]
  · simp [h₁, join, isAbsolute, anchorOf, Ne.symm h₁]

end SassModules.Path
