import SassModules.Proofs.Placement

/-!
# A look-up finds the earliest definition

What is enumerated can be looked up. For a mixin the look-up gives the first of the enumeration that has its name. For a
variable the two differ in one respect: a block comment hides a binding from the enumeration and not from the look-up, so
what is looked up stands at the place of a listed binding or before it (`Variable.find?_not_after`), and it is the first
that is listed where no line opens a block comment.

The look-up takes the leftmost match (`firstHitFrom?_le`) in the first line of code that has one
(`findSome?_codeLines_le`), and the enumeration reads some of the lines of code only (`outsideComments_sublist`).
-/

namespace SassModules

/-! ## The leftmost match -/

/-- The leftmost match is at or before every match. -/
theorem Pattern.firstHitFrom?_le {α : Type} {pat : Pattern α} {found : α × Text} : ∀ (s : Text) (column k : Nat),
    k < s.length → pat (s.drop k) = some found →
    ∃ h, pat.firstHitFrom? column s = some h ∧ h.start ≤ column + k
  | [], _, _, hk, _ => absurd hk (Nat.not_lt_zero _)
  | c :: s, column, k, hk, hfound => by
    rw [firstHitFrom?]
    cases hhere : pat (c :: s) with
    | some here => exact ⟨_, rfl, Nat.le_add_right _ _⟩
    | none =>
      cases k with
      | zero =>
        rw [List.drop_zero, hhere] at hfound
        cases hfound
      | succ k =>
        rw [List.drop_succ_cons] at hfound
        obtain ⟨h, hh, hle⟩ := firstHitFrom?_le s (column + 1) k (Nat.lt_of_succ_lt_succ hk) hfound
        exact ⟨h, hh, by omega⟩

/-! ## The first line -/

namespace Source

variable {content line : Text} {n : Nat}

/-- Lines of code come in the order of their numbers. -/
theorem pairwise_codeLines (content : Text) : (codeLines content).Pairwise (·.2 < ·.2) := by
  have hnumbers : (content.lines.zipIdx.map Prod.snd).Pairwise (· < ·) := by
    rw [List.zipIdx_map_snd]
    exact List.pairwise_lt_range'
  exact (List.pairwise_map.1 hnumbers).filter _

/-- A search through the lines of code ends at or before every line that would end it. -/
theorem findSome?_codeLines_le {β : Type} {f : Text × Nat → Option β} {b : β} (hline : (line, n) ∈ codeLines content)
    (hb : f (line, n) = some b) :
    ∃ first b', (codeLines content).findSome? f = some b' ∧ f first = some b' ∧
      (first = (line, n) ∨ first.2 < n) := by
  have hsome : ((codeLines content).findSome? f).isSome = true := by
    rw [List.findSome?_isSome_iff]
    exact ⟨_, hline, by rw [hb]; rfl⟩
  obtain ⟨b', hb'⟩ := Option.isSome_iff_exists.1 hsome
  obtain ⟨before, first, behind, hsplit, hfirst, hnone⟩ := List.findSome?_eq_some_iff.1 hb'
  refine ⟨first, b', hb', hfirst, ?_⟩
  have hsorted := pairwise_codeLines content
  rw [hsplit] at hline hsorted
  rcases List.mem_append.1 hline with hbefore | hrest
  · rw [hnone _ hbefore] at hb
    cases hb
  · rcases List.mem_cons.1 hrest with heq | hbehind
    · exact Or.inl heq.symm
    · have hlater := (List.pairwise_cons.1 (List.pairwise_append.1 hsorted).2.1).1
      exact Or.inr (hlater _ hbehind)

end Source

/-! ## Variables -/

namespace Variable

variable {content n : Text} {file : Path} {v : Variable}

/-- The enumeration reads lines of code only. -/
theorem outsideComments_sublist : ∀ (inBlock : Bool) (ls : List (Text × Nat)),
    (outsideComments inBlock ls).Sublist (ls.filter fun l => !Source.isCommentLine l.1)
  | _, [] => by
    rw [outsideComments]
    exact List.nil_sublist _
  | true, l :: ls => by
    rw [outsideComments]
    exact (outsideComments_sublist _ ls).trans ((List.sublist_cons_self l ls).filter _)
  | false, l :: ls => by
    have hskip : ∀ inBlock, (outsideComments inBlock ls).Sublist ((l :: ls).filter fun l => !Source.isCommentLine l.1) :=
      fun inBlock => (outsideComments_sublist inBlock ls).trans ((List.sublist_cons_self l ls).filter _)
    rw [outsideComments]
    split
    · exact hskip _
    · rename_i hcode
      split
      · exact hskip _
      · rw [List.filter_cons_of_pos (by simpa using hcode)]
        exact (outsideComments_sublist false ls).cons_cons l

/-- A listed variable is bound in a line of code, at its column. -/
theorem exists_of_mem_scan (hv : v ∈ scan content file) :
    ∃ line t rest, (line, v.line) ∈ Source.codeLines content ∧ v.column < line.length ∧
      Pattern.binding (line.drop v.column) = some ((v.name, t), rest) := by
  obtain ⟨⟨line, k⟩, hline, hhits⟩ := List.mem_flatMap.1 hv
  obtain ⟨h, hh, rfl⟩ := List.mem_map.1 hhits
  obtain ⟨rest, hbinding, -⟩ := Pattern.exists_of_mem_hits hh
  obtain ⟨-, m, b, -, -, -, hs⟩ := Pattern.binding_eq_some_iff.1 hbinding
  refine ⟨line, h.value.2, rest, (outsideComments_sublist false _).subset hline, ?_, hbinding⟩
  exact List.length_lt_of_drop_ne_nil (by rw [← hs]; simp)

/-- A variable that is listed is found by its name, at its own place or before it. -/
theorem find?_not_after (hn : Reference.isName n = true) (hv : v ∈ scan content file) (hname : v.name = '$' :: n) :
    ∃ u, find? content ('$' :: n) file = some u ∧ u.name = '$' :: n ∧ u.file = file ∧
      toLex (u.line, u.column) ≤ toLex (v.line, v.column) := by
  obtain ⟨line, t, rest, hline, hcolumn, hbinding⟩ := exists_of_mem_scan hv
  rw [hname, ← Pattern.bindingOf_eq_some_iff_binding hn] at hbinding
  obtain ⟨h, hh, hle⟩ := Pattern.firstHitFrom?_le line 0 v.column hcolumn hbinding
  rw [Nat.zero_add] at hle
  let bound (l : Text × Nat) : Option Variable :=
    ((Pattern.bindingOf ('$' :: n)).firstHit? l.1).map fun h => ⟨'$' :: n, file, l.2, h.start, valueIn h.value⟩
  have hhere : bound (line, v.line) = some ⟨'$' :: n, file, v.line, h.start, valueIn h.value⟩ := by
    show ((Pattern.bindingOf ('$' :: n)).firstHitFrom? 0 line).map _ = _
    rw [hh, Option.map_some]
  obtain ⟨⟨line', k⟩, u, hfind, hu, hfirst⟩ := Source.findSome?_codeLines_le hline hhere
  refine ⟨u, hfind, ?_⟩
  rcases hfirst with heq | hlt
  · rw [heq, hhere] at hu
    obtain rfl := Option.some.inj hu
    refine ⟨rfl, rfl, ?_⟩
    rw [Prod.Lex.toLex_le_toLex]
    exact Or.inr ⟨rfl, hle⟩
  · obtain ⟨h', -, rfl⟩ := Option.map_eq_some_iff.1 hu
    refine ⟨rfl, rfl, ?_⟩
    rw [Prod.Lex.toLex_le_toLex]
    exact Or.inl hlt

end Variable

/-! ## Both kinds -/

/-- Nothing is found exactly when nothing has the name. -/
theorem find?_name_eq_none_iff {α : Type} {nameOf : α → Text} {name : Text} {l : List α} :
    l.find? (fun a => nameOf a == name) = none ↔ ∀ a ∈ l, nameOf a ≠ name := by
  rw [List.find?_eq_none]
  simp

/-- **A look-up agrees with the enumeration.** A mixin that is looked up is the first of all mixins that has the name. A
variable that is listed is looked up at its own place or before it; where no line opens a block comment, the one that is
looked up is the first that is listed. -/
theorem lookup_agrees_with_enumeration (content : Text) (file : Path) :
    (∀ name, Mixin.find? content name file = (Mixin.scan content file).find? (·.name == name) ∧
      (Mixin.find? content name file = none ↔ ∀ m ∈ Mixin.scan content file, m.name ≠ name)) ∧
    ∀ n, Reference.isName n = true →
      (∀ v ∈ Variable.scan content file, v.name = '$' :: n →
        ∃ u, Variable.find? content ('$' :: n) file = some u ∧ u.name = '$' :: n ∧ u.file = file ∧
          toLex (u.line, u.column) ≤ toLex (v.line, v.column)) ∧
      ((∀ line ∈ content.lines, Text.occurs "/*" line = false) →
        Variable.find? content ('$' :: n) file = (Variable.scan content file).find? (·.name == '$' :: n) ∧
        (Variable.find? content ('$' :: n) file = none ↔ ∀ v ∈ Variable.scan content file, v.name ≠ '$' :: n)) := by
  constructor
  · intro name
    refine ⟨Mixin.find?_eq content name file, ?_⟩
    rw [Mixin.find?_eq]
    exact find?_name_eq_none_iff
  · intro n hn
    refine ⟨fun v hv hname => Variable.find?_not_after hn hv hname, fun hblock => ?_⟩
    refine ⟨Variable.find?_eq file hn hblock, ?_⟩
    rw [Variable.find?_eq file hn hblock]
    exact find?_name_eq_none_iff

/-- A line that binds one name twice, behind another that begins like it. -/
def Variable.sampleLine : Text := "$gap-x: 1; $gap : 2px; $gap: 3px;".toList

/-- The same line behind a binding in a block comment. -/
def Variable.sampleText : Text := "/* $gap: 1px; */\n".toList ++ sampleLine

/-- The binding in the comment is not listed, and it is the one that is looked up; in the line alone it is the first of
the two. -/
theorem lookup_agrees_with_enumeration_gap :
    (Reference.isName "gap".toList = true ∧
      (⟨"$gap".toList, ⟨.root, []⟩, 1, 11, some "2px".toList⟩ : Variable) ∈
        Variable.scan Variable.sampleText ⟨.root, []⟩ ∧
      ∃ u, Variable.find? Variable.sampleText "$gap".toList ⟨.root, []⟩ = some u ∧ u.name = "$gap".toList ∧
        u.file = ⟨.root, []⟩ ∧ toLex (u.line, u.column) ≤ toLex (1, 11)) ∧
    ((∀ line ∈ Variable.sampleLine.lines, Text.occurs "/*" line = false) ∧
      Variable.find? Variable.sampleLine "$gap".toList ⟨.root, []⟩ =
        (Variable.scan Variable.sampleLine ⟨.root, []⟩).find? (·.name == "$gap".toList)) := by
  have hname : Reference.isName "gap".toList = true := by decide
  have hlisted : (⟨"$gap".toList, ⟨.root, []⟩, 1, 11, some "2px".toList⟩ : Variable) ∈
      Variable.scan Variable.sampleText ⟨.root, []⟩ := by decide +kernel
  have hplain : ∀ line ∈ Variable.sampleLine.lines, Text.occurs "/*" line = false := by decide +kernel
  have hfirst := (lookup_agrees_with_enumeration Variable.sampleText ⟨.root, []⟩).2 _ hname
  have halone := (lookup_agrees_with_enumeration Variable.sampleLine ⟨.root, []⟩).2 _ hname
  exact ⟨⟨hname, hlisted, hfirst.1 _ hlisted rfl⟩, hplain, (halone.2 hplain).1⟩

end SassModules
