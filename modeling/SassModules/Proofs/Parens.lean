import SassModules.Proofs.Signature

/-!
# Matching parentheses

Two readers look for the partner of an opening parenthesis: `closing?` gives its column in a line, and `listText?` gives
the text in front of it, over as many lines as it takes and without comments. Both count the parentheses that are open.
`openParens` tells that count for a stretch of text; a reader stops at the first place where it has used up what was open
(`closingFrom_eq_some`), and it ends without a result where no stretch does so (`closingFrom_eq_none`). A list is what
stands in front of that place (`capture_eq_take`), so the two readers find the same partner (`parens_matched`).
-/

namespace SassModules

open Parameter

/-! ## The column of the partner -/

section Closing

variable {depth : Int} {i : Nat} {s : Text}

/-- Columns count from where the text begins. -/
theorem closingFrom_column (depth : Int) (column : Nat) (s : Text) :
    closingFrom depth column s = (closingFrom depth 0 s).map (column + ·) := by
  induction s generalizing depth column with
  | nil => rfl
  | cons c s ih =>
    have hnext : ∀ d : Int, closingFrom d (column + 1) s = (closingFrom d (0 + 1) s).map (column + ·) := by
      intro d
      rw [ih d (column + 1), ih d (0 + 1), Option.map_map]
      congr 1
      funext k
      show column + 1 + k = column + (0 + 1 + k)
      omega
    simp only [closingFrom]
    split
    · exact hnext _
    · split
      · split
        · rfl
        · exact hnext _
      · exact hnext _

theorem openParens_nil : openParens [] = 0 := rfl

theorem openParens_singleton (c : Char) :
    openParens [c] = if c = '(' then 1 else if c = ')' then -1 else 0 := by
  rw [openParens_cons, openParens_nil, Int.add_zero]

theorem openParens_take_succ (c : Char) (s : Text) (k : Nat) :
    openParens ((c :: s).take (k + 1)) = openParens [c] + openParens (s.take k) := by
  rw [List.take_succ_cons, openParens_cons, openParens_singleton]

/-- A parenthesis that one character does not close stays open. -/
theorem one_le_of_ne_zero {c : Char} (hdepth : 1 ≤ depth) (hne : depth + openParens [c] ≠ 0) :
    1 ≤ depth + openParens [c] := by
  rw [openParens_singleton] at hne ⊢
  split_ifs at hne ⊢ <;> omega

/-- While a parenthesis is open, the reader stops at a character that leaves none open, and goes on with the new count
behind any other. -/
theorem closingFrom_cons (hdepth : 1 ≤ depth) (c : Char) (s : Text) :
    closingFrom depth 0 (c :: s) =
      if depth + openParens [c] = 0 then some 0 else (closingFrom (depth + openParens [c]) 0 s).map (1 + ·) := by
  rw [closingFrom, openParens_singleton]
  by_cases hopen : c = '('
  · rw [if_pos hopen, if_pos hopen, if_neg (by omega), closingFrom_column]
  · rw [if_neg hopen, if_neg hopen]
    by_cases hclose : c = ')'
    · rw [if_pos hclose, if_pos hclose]
      by_cases hone : depth = 1
      · rw [if_pos hone, if_pos (by omega)]
      · rw [if_neg hone, if_neg (by omega), closingFrom_column]
        rfl
    · rw [if_neg hclose, if_neg hclose, if_neg (by omega), closingFrom_column, Int.add_zero]

/-- The reader stops at the first place where no parenthesis is left open. -/
theorem closingFrom_eq_some (hdepth : 1 ≤ depth) (h : closingFrom depth 0 s = some i) :
    i < s.length ∧ depth + openParens (s.take (i + 1)) = 0 ∧ ∀ j < i, 0 < depth + openParens (s.take (j + 1)) := by
  induction s generalizing depth i with
  | nil => cases h
  | cons c s ih =>
    rw [closingFrom_cons hdepth] at h
    split at h
    · rename_i hzero
      obtain rfl := Option.some.inj h
      refine ⟨Nat.succ_pos _, ?_, fun j hj => absurd hj (Nat.not_lt_zero j)⟩
      rw [openParens_take_succ, List.take_zero, openParens_nil, Int.add_zero]
      exact hzero
    · rename_i hne
      obtain ⟨k, hk, rfl⟩ := Option.map_eq_some_iff.1 h
      have hstep := one_le_of_ne_zero hdepth hne
      obtain ⟨hlt, hzero, hopen⟩ := ih hstep hk
      refine ⟨?_, ?_, ?_⟩
      · rw [List.length_cons]
        omega
      · rw [openParens_take_succ, Nat.add_comm 1 k]
        omega
      · intro j hj
        rw [openParens_take_succ]
        cases j with
        | zero =>
          rw [List.take_zero, openParens_nil]
          omega
        | succ j =>
          have := hopen j (by omega)
          omega

/-- The reader ends without a result where every stretch leaves a parenthesis open. -/
theorem closingFrom_eq_none (hdepth : 1 ≤ depth) (h : closingFrom depth 0 s = none) :
    ∀ j < s.length, 0 < depth + openParens (s.take (j + 1)) := by
  induction s generalizing depth with
  | nil => exact fun j hj => absurd hj (Nat.not_lt_zero j)
  | cons c s ih =>
    rw [closingFrom_cons hdepth] at h
    split at h
    · cases h
    · rename_i hne
      have hstep := one_le_of_ne_zero hdepth hne
      have hopen := ih hstep (Option.map_eq_none_iff.1 h)
      intro j hj
      rw [openParens_take_succ]
      cases j with
      | zero =>
        rw [List.take_zero, openParens_nil]
        omega
      | succ j =>
        have := hopen j (by simpa using hj)
        omega

/-- The first parenthesis opens the count. -/
theorem closing?_cons (s : Text) : closing? ('(' :: s) 0 = (closingFrom 1 0 s).map (1 + ·) :=
  closingFrom_column 1 1 s

/-- The column of the partner, from the opening parenthesis on. -/
theorem closing?_eq {text : Text} {start : Nat} (h : text[start]? = some '(') :
    ∃ s, text.drop start = '(' :: s ∧ closing? text start = (closingFrom 1 0 s).map (start + 1 + ·) := by
  obtain ⟨hlt, hget⟩ := List.getElem?_eq_some_iff.1 h
  refine ⟨text.drop (start + 1), by rw [List.drop_eq_getElem_cons hlt, hget], ?_⟩
  rw [closing?, List.drop_eq_getElem_cons hlt, hget]
  exact closingFrom_column 1 (start + 1) _

end Closing

/-! ## The text in front of it -/

section Capture

variable {depth : Int} {s t : Text}

/-- While a parenthesis is open, a list is the text in front of the place where the reader of columns stops. -/
theorem capture_eq_take (hdepth : 1 ≤ depth) : capture depth s = (closingFrom depth 0 s).map (s.take ·) := by
  induction s generalizing depth with
  | nil => rfl
  | cons c s ih =>
    have hnext : ∀ d : Int, 1 ≤ d →
        (capture d s).map (c :: ·) = ((closingFrom d 0 s).map (1 + ·)).map ((c :: s).take ·) := by
      intro d hd
      rw [ih hd, Option.map_map, Option.map_map]
      congr 1
      funext k
      show c :: s.take k = (c :: s).take (1 + k)
      rw [Nat.add_comm 1 k, List.take_succ_cons]
    rw [closingFrom_cons hdepth, capture]
    by_cases hopen : c = '('
    · have hone : openParens [c] = 1 := by rw [openParens_singleton, if_pos hopen]
      rw [if_pos hopen, if_neg (by omega), hone, if_neg (by omega)]
      exact hnext _ (by omega)
    · rw [if_neg hopen]
      by_cases hclose : c = ')'
      · have hone : openParens [c] = -1 := by rw [openParens_singleton, if_neg hopen, if_pos hclose]
        rw [if_pos hclose, hone]
        by_cases hlast : depth = 1
        · rw [if_pos hlast, if_pos (by omega)]
          rfl
        · rw [if_neg hlast, if_neg (by omega)]
          exact hnext _ (by omega)
      · have hzero : openParens [c] = 0 := by rw [openParens_singleton, if_neg hopen, if_neg hclose]
        rw [if_neg hclose, hzero, Int.add_zero, if_neg (by omega)]
        exact hnext _ hdepth

/-- Behind a captured text stands the parenthesis that closes it. -/
theorem exists_append_of_capture (hdepth : 1 ≤ depth) (h : capture depth s = some t) :
    ∃ rest, s = t ++ ')' :: rest := by
  induction s generalizing depth t with
  | nil => cases h
  | cons c s ih =>
    have hnext : ∀ d : Int, 1 ≤ d → (capture d s).map (c :: ·) = some t → ∃ rest, c :: s = t ++ ')' :: rest := by
      intro d hd hcaptured
      obtain ⟨u, hu, rfl⟩ := Option.map_eq_some_iff.1 hcaptured
      obtain ⟨rest, hrest⟩ := ih hd hu
      exact ⟨rest, congrArg (c :: ·) hrest⟩
    rw [capture] at h
    by_cases hopen : c = '('
    · rw [if_pos hopen, if_neg (by omega)] at h
      exact hnext _ (by omega) h
    · rw [if_neg hopen] at h
      by_cases hclose : c = ')'
      · rw [if_pos hclose] at h
        by_cases hlast : depth = 1
        · rw [if_pos hlast] at h
          obtain rfl := Option.some.inj h
          exact ⟨s, by rw [hclose]; rfl⟩
        · rw [if_neg hlast] at h
          exact hnext _ (by omega) h
      · rw [if_neg hclose] at h
        exact hnext _ hdepth h

/-- A captured list stands between the first parenthesis and its partner. -/
theorem capture_eq_between (s : Text) :
    capture 0 ('(' :: s) = (closing? ('(' :: s) 0).map fun i => (('(' :: s).take i).drop 1 := by
  rw [closing?_cons, Option.map_map]
  show capture 1 s = _
  rw [capture_eq_take (Int.le_refl 1)]
  congr 1
  funext k
  show s.take k = (('(' :: s).take (1 + k)).drop 1
  rw [Nat.add_comm 1 k, List.take_succ_cons, List.drop_succ_cons, List.drop_zero]

theorem textFrom_eq_join {lines rest : List Text} {l : Nat} {first : Text} (hlines : lines.drop l = first :: rest)
    (c : Nat) : textFrom lines l c = Text.join "\n" (dropComment (first.drop c) :: rest.map dropComment) := by
  rw [textFrom, hlines]
  rfl

/-- The text from an opening parenthesis on begins with it, since no comment begins there. -/
theorem textFrom_eq_cons {lines rest : List Text} {l c : Nat} {first : Text} (hlines : lines.drop l = first :: rest)
    (hparen : first[c]? = some '(') : ∃ s, textFrom lines l c = '(' :: s := by
  obtain ⟨u, hu, -⟩ := closing?_eq hparen
  rw [textFrom_eq_join hlines, hu, dropComment, dropCommentAfter_cons (by simp), Text.join]
  cases rest with
  | nil => exact ⟨_, List.intercalate_singleton⟩
  | cons r rs => exact ⟨_, List.intercalate_cons_cons⟩

end Capture

/-! ## Both readers -/

/-- The characters of a line from one column to another, both included. -/
def Text.stretch (text : Text) (first last : Nat) : Text := (text.drop first).take (last + 1 - first)

/-- The columns from `start` on up to which a line closes as many parentheses as it opens. -/
def balancedColumns (text : Text) (start : Nat) : Set Nat :=
  {i | start ≤ i ∧ i < text.length ∧ (text.stretch start i).count '(' = (text.stretch start i).count ')'}

section Columns

variable {text s : Text} {start i : Nat}

theorem openParens_eq_zero_iff {t : Text} : openParens t = 0 ↔ t.count '(' = t.count ')' := by
  rw [openParens]
  omega

theorem openParens_pos_iff {t : Text} : 0 < openParens t ↔ t.count ')' < t.count '(' := by
  rw [openParens]
  omega

theorem openParens_stretch (hs : text.drop start = '(' :: s) (k : Nat) :
    openParens (text.stretch start (start + k)) = 1 + openParens (s.take k) := by
  rw [Text.stretch, hs, show start + k + 1 - start = k + 1 by omega, openParens_take_succ]
  rfl

theorem length_of_drop (hs : text.drop start = '(' :: s) : text.length = start + 1 + s.length := by
  have hlen := congrArg List.length hs
  rw [List.length_drop, List.length_cons] at hlen
  omega

/-- In front of the partner, or anywhere if there is none, more parentheses are opened than closed. -/
theorem closing?_open_before (h : text[start]? = some '(') {j : Nat} (hstart : start ≤ j) (hj : j < text.length)
    (hbefore : ∀ i, closing? text start = some i → j < i) :
    0 < openParens (text.stretch start j) := by
  obtain ⟨s, hs, hclosing⟩ := closing?_eq h
  have hlen := length_of_drop hs
  obtain ⟨k, rfl⟩ := Nat.exists_eq_add_of_le hstart
  rw [openParens_stretch hs]
  cases k with
  | zero =>
    rw [List.take_zero, openParens_nil]
    omega
  | succ k =>
    cases hfound : closingFrom 1 0 s with
    | none => exact closingFrom_eq_none (Int.le_refl 1) hfound k (by omega)
    | some i =>
      rw [hfound, Option.map_some] at hclosing
      have hlt : start + (k + 1) < start + 1 + i := hbefore _ hclosing
      exact (closingFrom_eq_some (Int.le_refl 1) hfound).2.2 k (by omega)

/-- The partner stands in the line, behind the opening parenthesis, and leaves none open. -/
theorem closing?_balanced (h : text[start]? = some '(') (hi : closing? text start = some i) :
    start ≤ i ∧ i < text.length ∧ openParens (text.stretch start i) = 0 := by
  obtain ⟨s, hs, hclosing⟩ := closing?_eq h
  have hlen := length_of_drop hs
  rw [hclosing] at hi
  obtain ⟨k, hk, rfl⟩ := Option.map_eq_some_iff.1 hi
  obtain ⟨hlt, hzero, -⟩ := closingFrom_eq_some (Int.le_refl 1) hk
  refine ⟨by omega, by omega, ?_⟩
  rw [Nat.add_assoc, Nat.add_comm 1 k, openParens_stretch hs]
  exact hzero

/-- The partner is at the first column where as many are closed as opened. -/
theorem isLeast_of_closing? (h : text[start]? = some '(') (hi : closing? text start = some i) :
    IsLeast (balancedColumns text start) i := by
  obtain ⟨hstart, hlt, hzero⟩ := closing?_balanced h hi
  refine ⟨⟨hstart, hlt, openParens_eq_zero_iff.1 hzero⟩, ?_⟩
  rintro j ⟨hj, hjlt, hbalanced⟩
  by_contra hbefore
  have hpos : 0 < openParens (text.stretch start j) := by
    apply closing?_open_before h hj hjlt
    intro i' hi'
    obtain rfl : i = i' := Option.some.inj (hi.symm.trans hi')
    omega
  rw [openParens_eq_zero_iff.2 hbalanced] at hpos
  exact absurd hpos (Int.lt_irrefl 0)

theorem closing?_eq_none_iff (h : text[start]? = some '(') :
    closing? text start = none ↔ balancedColumns text start = ∅ := by
  constructor
  · intro hnone
    rw [Set.eq_empty_iff_forall_notMem]
    rintro j ⟨hj, hjlt, hbalanced⟩
    have hpos := closing?_open_before h hj hjlt fun i hi => by rw [hnone] at hi; cases hi
    rw [openParens_eq_zero_iff.2 hbalanced] at hpos
    exact absurd hpos (Int.lt_irrefl 0)
  · intro hempty
    cases hi : closing? text start with
    | none => rfl
    | some i =>
      have hmem := (isLeast_of_closing? h hi).1
      rw [hempty] at hmem
      exact absurd hmem (Set.notMem_empty i)

theorem closing?_eq_some_iff (h : text[start]? = some '(') :
    closing? text start = some i ↔ IsLeast (balancedColumns text start) i := by
  constructor
  · exact isLeast_of_closing? h
  · intro hleast
    cases hi : closing? text start with
    | none =>
      have hmem := hleast.1
      rw [(closing?_eq_none_iff h).1 hi] at hmem
      exact absurd hmem (Set.notMem_empty i)
    | some i' => rw [(isLeast_of_closing? h hi).unique hleast]

end Columns

/-- **Parentheses are matched.** In a line, the partner of an opening parenthesis is at the first column up to which as
many parentheses are closed as opened, there is none exactly when there is no such column, and up to each column in front
of it more are opened than closed. A list that opens at a position of some lines is the text between the parenthesis and
that partner, in the lines from there on without comments; it has no text exactly when there is no partner. -/
theorem parens_matched :
    (∀ (text : Text) (start : Nat), text[start]? = some '(' →
      (∀ i, closing? text start = some i ↔ IsLeast (balancedColumns text start) i) ∧
      (closing? text start = none ↔ balancedColumns text start = ∅) ∧
      ∀ j, start ≤ j → j < text.length → (∀ i, closing? text start = some i → j < i) →
        (text.stretch start j).count ')' < (text.stretch start j).count '(') ∧
    ∀ (lines : List Text) (l c : Nat) (first : Text) (rest : List Text), lines.drop l = first :: rest →
      first[c]? = some '(' → ∀ t : Text, t = Text.join "\n" (dropComment (first.drop c) :: rest.map dropComment) →
        (listText? lines l c = (closing? t 0).map fun i => (t.take i).drop 1) ∧
        (listText? lines l c = none ↔ closing? t 0 = none) := by
  constructor
  · intro text start h
    refine ⟨fun i => closing?_eq_some_iff h, closing?_eq_none_iff h, ?_⟩
    intro j hstart hj hbefore
    exact openParens_pos_iff.1 (closing?_open_before h hstart hj hbefore)
  · rintro lines l c first rest hlines hparen t rfl
    obtain ⟨s, hs⟩ := textFrom_eq_cons hlines hparen
    have hlist : listText? lines l c = (closing? ('(' :: s) 0).map fun i => (('(' :: s).take i).drop 1 := by
      rw [listText?, hs]
      exact capture_eq_between s
    rw [← textFrom_eq_join hlines, hs]
    exact ⟨hlist, by rw [hlist, Option.map_eq_none_iff]⟩

/-- A head whose list holds another pair of parentheses, one in a comment, and a line feed; nothing closes the brace. -/
def Parameter.sampleLines : List Text := ["@mixin m($a: f(1), // (".toList, "  $b) \x7b".toList]

theorem parens_matched_nested :
    ("f(a, g(b), c) + d".toList[1]? = some '(' ∧
      IsLeast (balancedColumns "f(a, g(b), c) + d".toList 1) 12) ∧
    ("@mixin m($a: f(1), // (".toList[8]? = some '(' ∧
      listText? sampleLines 0 8 = some "$a: f(1), \n  $b".toList) := by
  have hline : "f(a, g(b), c) + d".toList[1]? = some '(' := by decide
  have hlist : "@mixin m($a: f(1), // (".toList[8]? = some '(' := by decide
  refine ⟨⟨hline, ((parens_matched.1 _ 1 hline).1 12).1 (by decide +kernel)⟩, hlist, ?_⟩
  rw [(parens_matched.2 sampleLines 0 8 _ _ rfl hlist _ rfl).1]
  decide +kernel

end SassModules
