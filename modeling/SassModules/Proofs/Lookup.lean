import SassModules.Proofs.Prefixes
import SassModules.Session

/-!
# Looking a definition up, and enumerating all of them

A definition can be looked up by its name or found in the enumeration of all definitions, by two scanners that are
written apart. For mixins the look-up is the first of the enumeration with the name (`Mixin.find?_eq`). For variables
one scanner searches each line for the name and a colon, the other reads non-overlapping bindings of any name; they
agree where no line opens a block comment (`Variable.find?_eq`), because a binding holds one `$` only, so none hides the
beginning of another (`hitsFrom_find?`), and because a name ends where its binding reads it to end: white space is no
part of a name.
-/

namespace SassModules

/-! ## Character classes -/

namespace Text

/-- The code points of white space. -/
def blankCodes : List Nat :=
  List.range' 9 5 ++ List.range' 28 5 ++ [0x85, 0xA0, 0x1680] ++ List.range' 0x2000 11 ++
    [0x2028, 0x2029, 0x202F, 0x205F, 0x3000]

theorem toNat_mem_blankCodes {c : Char} (h : isBlank c = true) : c.toNat ∈ blankCodes := by
  simp only [isBlank] at h
  simp only [blankCodes, List.mem_append, List.mem_range'_1, List.mem_cons, List.not_mem_nil, or_false]
  split at h <;> simp only [Bool.or_eq_true, Bool.and_eq_true, beq_iff_eq, decide_eq_true_eq] at h <;> omega

/-- White space is no part of a name. -/
theorem isNameChar_of_isBlank {c : Char} (h : isBlank c = true) : isNameChar c = false := by
  have hcodes : ∀ n ∈ blankCodes, isNameChar (Char.ofNat n) = false := by decide +kernel
  have hc := hcodes c.toNat (toNat_mem_blankCodes h)
  rwa [Char.ofNat_toNat] at hc

end Text

/-! ## Patterns -/

namespace Pattern

variable {α : Type}

/-- A hit is a match at its column. -/
theorem exists_of_mem_hitsFrom {pat : Pattern α} {h : Hit α} : ∀ (s : Text) (skip column : Nat),
    h ∈ pat.hitsFrom skip column s → ∃ k rest, h.start = column + k ∧ pat (s.drop k) = some (h.value, rest) ∧
      h.length = (s.drop k).length - rest.length
  | [], _, _, hm => by simp [hitsFrom] at hm
  | _ :: s, skip + 1, column, hm => by
    obtain ⟨k, rest, hstart, hk⟩ := exists_of_mem_hitsFrom s skip (column + 1) hm
    exact ⟨k + 1, rest, by omega, hk⟩
  | c :: s, 0, column, hm => by
    unfold hitsFrom at hm
    split at hm
    · obtain ⟨k, rest, hstart, hk⟩ := exists_of_mem_hitsFrom s 0 (column + 1) hm
      exact ⟨k + 1, rest, by omega, hk⟩
    · rename_i value rest heq
      rcases List.mem_cons.1 hm with rfl | hm
      · exact ⟨0, rest, rfl, heq, rfl⟩
      · obtain ⟨k, rest, hstart, hk⟩ := exists_of_mem_hitsFrom s _ (column + 1) hm
        exact ⟨k + 1, rest, by omega, hk⟩

theorem exists_of_mem_hits {pat : Pattern α} {h : Hit α} {s : Text} (hm : h ∈ pat.hits s) :
    ∃ rest, pat (s.drop h.start) = some (h.value, rest) ∧ h.length = (s.drop h.start).length - rest.length := by
  obtain ⟨k, rest, hstart, hk⟩ := exists_of_mem_hitsFrom s 0 0 hm
  rw [Nat.zero_add] at hstart
  exact ⟨rest, hstart ▸ hk⟩

theorem literal_eq_some_iff {w : String} {s rest : Text} : literal w s = some rest ↔ w.toList ++ rest = s :=
  List.isPrefixOf?_eq_some_iff_append_eq

/-- A run of a class ends in front of a character outside it. -/
theorem run_append {p : Char → Bool} {body rest : Text} (hbody : ∀ c ∈ body, p c = true)
    (hrest : ∀ c ∈ rest.head?, p c = false) : run p (body ++ rest) = (body, rest) := by
  have hstop : rest.takeWhile p = [] ∧ rest.dropWhile p = rest := by
    cases rest with
    | nil => exact ⟨rfl, rfl⟩
    | cons c rest => simp [hrest c rfl]
  rw [run, List.takeWhile_append_of_pos hbody, List.dropWhile_append_of_pos hbody, hstop.1, hstop.2, List.append_nil]

/-- A run holds characters of the class and leaves one outside it. -/
theorem run_spec {p : Char → Bool} {s body rest : Text} (h : run p s = (body, rest)) :
    body ++ rest = s ∧ (∀ c ∈ body, p c = true) ∧ ∀ c ∈ rest.head?, p c = false := by
  obtain ⟨rfl, rfl⟩ := Prod.mk.inj h
  refine ⟨List.takeWhile_append_dropWhile, fun c hc => List.mem_takeWhile_imp hc, fun c hc => ?_⟩
  have hnot := List.head?_dropWhile_not p s
  rw [Option.mem_def.1 hc] at hnot
  simpa using hnot

theorem isName_iff {n : Text} : Reference.isName n = true ↔ n ≠ [] ∧ ∀ c ∈ n, Text.isNameChar c = true := by
  simp [Reference.isName]

/-- A name holds name characters only. -/
theorem not_mem_of_isName {n : Text} (hn : Reference.isName n = true) {c : Char} (hc : Text.isNameChar c = false) :
    c ∉ n := by
  intro hmem
  have hchar := (isName_iff.1 hn).2 c hmem
  rw [hc] at hchar
  cases hchar

/-- The longest beginning in a class, if it is not empty. -/
theorem run1_eq_some_iff {p : Char → Bool} {s body rest : Text} : run1 p s = some (body, rest) ↔
    body ≠ [] ∧ (∀ c ∈ body, p c = true) ∧ body ++ rest = s ∧ ∀ c ∈ rest.head?, p c = false := by
  constructor
  · intro h
    unfold run1 at h
    split at h
    · cases h
    · rename_i c w heq
      obtain ⟨rfl, rfl⟩ := Prod.mk.inj (Option.some.inj h)
      obtain ⟨happend, hall, hend⟩ := run_spec (Prod.ext heq rfl : run p s = (c :: w, _))
      exact ⟨List.cons_ne_nil _ _, hall, happend, hend⟩
  · rintro ⟨hne, hall, rfl, hend⟩
    obtain ⟨c, body, rfl⟩ := List.exists_cons_of_ne_nil hne
    obtain ⟨htake, hdrop⟩ := Prod.mk.inj (run_append hall hend)
    unfold run1
    rw [htake, hdrop]

/-- A word is the longest beginning that is a name. -/
theorem word_eq_some_iff {s n rest : Text} : word s = some (n, rest) ↔
    Reference.isName n = true ∧ n ++ rest = s ∧ ∀ c ∈ rest.head?, Text.isNameChar c = false := by
  rw [isName_iff, word, run1_eq_some_iff, and_assoc]

theorem blanks1_eq_some_iff {s rest : Text} : blanks1 s = some rest ↔ ∃ b, b ≠ [] ∧
    (∀ c ∈ b, Text.isBlank c = true) ∧ b ++ rest = s ∧ ∀ c ∈ rest.head?, Text.isBlank c = false := by
  simp only [blanks1, Option.map_eq_some_iff, Prod.exists, run1_eq_some_iff, exists_eq_right]

/-- White space is taken off the start of a text. -/
theorem exists_blanks_append (s : Text) : ∃ b, (∀ c ∈ b, Text.isBlank c = true) ∧ b ++ blanks s = s := by
  obtain ⟨happend, hall, -⟩ := run_spec (rfl : run Text.isBlank s = _)
  exact ⟨_, hall, happend⟩

/-- Behind a word stands white space or the sign that follows it. -/
theorem isBlank_or_eq_of_mem_head? {b rest : Text} {c c' : Char} (hb : ∀ c ∈ b, Text.isBlank c = true)
    (hc : c' ∈ (b ++ c :: rest).head?) : Text.isBlank c' = true ∨ c' = c := by
  cases b with
  | nil => exact Or.inr (Option.some.inj hc).symm
  | cons c'' b =>
    obtain rfl : c'' = c' := Option.some.inj hc
    exact Or.inl (hb c'' List.mem_cons_self)

/-! ## Heads of mixins -/

/-- The bracket behind a head: a parenthesis if a list of parameters follows, else a brace. -/
def headBracket (head : Mixin.Head) : Char := if head.hasList then '(' else '{'

/-- The head of a mixin: the keyword, white space, the name, white space and its bracket. -/
theorem mixinHead_eq_append {s rest : Text} {head : Mixin.Head} (h : mixinHead s = some (head, rest)) :
    ∃ b b', b ≠ [] ∧ (∀ c ∈ b, Text.isBlank c = true) ∧ Reference.isName head.name = true ∧
      (∀ c ∈ b', Text.isBlank c = true) ∧
      ("@mixin".toList ++ b) ++ (head.name ++ (b' ++ headBracket head :: rest)) = s ∧
      head.nameOffset = ("@mixin".toList ++ b).length := by
  simp only [mixinHead, Option.bind_eq_bind, Option.bind_eq_some_iff, Prod.exists] at h
  obtain ⟨t, ht, u, hu, name, v, hv, hend⟩ := h
  obtain rfl := literal_eq_some_iff.1 ht
  obtain ⟨b, hb, hblank, rfl, -⟩ := blanks1_eq_some_iff.1 hu
  obtain ⟨hname, rfl, -⟩ := word_eq_some_iff.1 hv
  obtain ⟨b', hblank', hv'⟩ := exists_blanks_append v
  have hoffset : ("@mixin".toList ++ (b ++ (name ++ v))).length - (name ++ v).length =
      ("@mixin".toList ++ b).length := by
    simp only [List.length_append]
    omega
  split at hend
  · rename_i rest' hrest
    obtain ⟨rfl, rfl⟩ := Prod.mk.inj (Option.some.inj hend)
    refine ⟨b, b', hb, hblank, hname, hblank', ?_, hoffset⟩
    show _ ++ (name ++ (b' ++ '(' :: rest')) = _
    rw [← hrest, hv', List.append_assoc]
  · rename_i rest' hrest
    obtain ⟨rfl, rfl⟩ := Prod.mk.inj (Option.some.inj hend)
    refine ⟨b, b', hb, hblank, hname, hblank', ?_, hoffset⟩
    show _ ++ (name ++ (b' ++ '{' :: rest')) = _
    rw [← hrest, hv', List.append_assoc]
  · cases hend

/-- The head of a mixin, with a bracket of either kind. -/
theorem mixinHead_eq_some {s rest : Text} {head : Mixin.Head} (h : mixinHead s = some (head, rest)) :
    ∃ b b' bracket, b ≠ [] ∧ (∀ c ∈ b, Text.isBlank c = true) ∧ Reference.isName head.name = true ∧
      (∀ c ∈ b', Text.isBlank c = true) ∧ (bracket = '(' ∨ bracket = '{') ∧
      ("@mixin".toList ++ b) ++ (head.name ++ (b' ++ bracket :: rest)) = s ∧
      head.nameOffset = ("@mixin".toList ++ b).length := by
  obtain ⟨b, b', hb, hblank, hname, hblank', hs, hoffset⟩ := mixinHead_eq_append h
  refine ⟨b, b', headBracket head, hb, hblank, hname, hblank', ?_, hs, hoffset⟩
  unfold headBracket
  split
  · exact Or.inl rfl
  · exact Or.inr rfl

/-! ## Bindings -/

/-- White space and a sign behind it. -/
theorem sign_eq_some_iff {w : String} {c : Char} (hw : w.toList = [c]) (hc : Text.isBlank c = false) {u t : Text} :
    literal w (blanks u) = some t ↔ ∃ b, (∀ c ∈ b, Text.isBlank c = true) ∧ b ++ c :: t = u := by
  have hsign : ∀ c' ∈ (c :: t).head?, Text.isBlank c' = false := by
    intro c' hc'
    obtain rfl : c = c' := Option.some.inj hc'
    exact hc
  rw [literal_eq_some_iff, hw]
  constructor
  · intro h
    have hrun : run Text.isBlank u = (u.takeWhile Text.isBlank, c :: t) := Prod.ext rfl h.symm
    obtain ⟨happend, hblank, -⟩ := run_spec hrun
    exact ⟨_, hblank, happend⟩
  · rintro ⟨b, hblank, rfl⟩
    exact (Prod.mk.inj (run_append hblank hsign)).2.symm

theorem colon_eq_some_iff {u t : Text} :
    literal ":" (blanks u) = some t ↔ ∃ b, (∀ c ∈ b, Text.isBlank c = true) ∧ b ++ ':' :: t = u :=
  sign_eq_some_iff rfl (by decide)

theorem bindingOf_eq_some_iff {name s t r : Text} : bindingOf name s = some (t, r) ↔
    r = t ∧ ∃ b, (∀ c ∈ b, Text.isBlank c = true) ∧ name ++ (b ++ ':' :: t) = s := by
  simp only [bindingOf, Option.bind_eq_bind, Option.bind_eq_some_iff, List.isPrefixOf?_eq_some_iff_append_eq,
    colon_eq_some_iff, Option.some.injEq, Prod.mk.injEq]
  constructor
  · rintro ⟨u, rfl, t', ⟨b, hblank, rfl⟩, rfl, rfl⟩
    exact ⟨rfl, b, hblank, rfl⟩
  · rintro ⟨rfl, b, hblank, rfl⟩
    exact ⟨_, rfl, r, ⟨b, hblank, rfl⟩, rfl, rfl⟩

theorem binding_eq_some_iff {m s t r : Text} : binding s = some ((m, t), r) ↔
    r = t ∧ ∃ n b, m = '$' :: n ∧ Reference.isName n = true ∧ (∀ c ∈ b, Text.isBlank c = true) ∧
      '$' :: (n ++ (b ++ ':' :: t)) = s := by
  simp only [binding, Option.bind_eq_bind, Option.bind_eq_some_iff, colon_eq_some_iff, Prod.exists, word_eq_some_iff,
    Option.some.injEq, Prod.mk.injEq]
  simp only [literal_eq_some_iff]
  constructor
  · rintro ⟨u, rfl, n, v, ⟨hname, rfl, -⟩, t', ⟨b, hblank, rfl⟩, ⟨rfl, rfl⟩, rfl⟩
    exact ⟨rfl, n, b, rfl, hname, hblank, rfl⟩
  · rintro ⟨rfl, n, b, rfl, hname, hblank, rfl⟩
    refine ⟨_, rfl, n, b ++ ':' :: r, ⟨hname, rfl, ?_⟩, r, ⟨b, hblank, rfl⟩, ⟨rfl, rfl⟩, rfl⟩
    -- the name ends at white space or at the colon
    intro c hc
    rcases isBlank_or_eq_of_mem_head? hblank hc with hc | rfl
    · exact Text.isNameChar_of_isBlank hc
    · decide

/-- Searching for one name and reading any name agree at the head of a text. -/
theorem bindingOf_eq_some_iff_binding {n s t r : Text} (hn : Reference.isName n = true) :
    bindingOf ('$' :: n) s = some (t, r) ↔ binding s = some (('$' :: n, t), r) := by
  rw [bindingOf_eq_some_iff, binding_eq_some_iff]
  constructor
  · rintro ⟨rfl, b, hblank, rfl⟩
    exact ⟨rfl, n, b, rfl, hn, hblank, rfl⟩
  · rintro ⟨rfl, n', b, heq, -, hblank, rfl⟩
    obtain rfl := (List.cons.inj heq).2
    exact ⟨rfl, b, hblank, rfl⟩

theorem bindingOf_eq_none {n s : Text} (hn : Reference.isName n = true)
    (h : ∀ t r, binding s ≠ some (('$' :: n, t), r)) : bindingOf ('$' :: n) s = none := by
  cases hb : bindingOf ('$' :: n) s with
  | none => rfl
  | some tr => exact absurd ((bindingOf_eq_some_iff_binding hn).1 hb) (h tr.1 tr.2)

/-- No second `$` stands inside a binding. -/
theorem not_mem_take_of_binding {c : Char} {m s t r : Text} (h : binding (c :: s) = some ((m, t), r)) :
    '$' ∉ s.take (s.length + 1 - r.length - 1) := by
  obtain ⟨rfl, n, b, -, hname, hblank, heq⟩ := binding_eq_some_iff.1 h
  obtain ⟨-, rfl⟩ := List.cons.inj heq
  have hlen : (n ++ (b ++ ':' :: r)).length + 1 - r.length - 1 = (n ++ (b ++ [':'])).length := by
    simp only [List.length_append, List.length_cons, List.length_nil]
    omega
  have happend : n ++ (b ++ ':' :: r) = (n ++ (b ++ [':'])) ++ r := by simp
  rw [hlen, happend, List.take_left]
  simp only [List.mem_append, List.mem_singleton, not_or]
  refine ⟨fun hm => ?_, fun hm => ?_, by decide⟩
  · exact Name.not_mem_of_isName hname hm
  · exact absurd (hblank '$' hm) (by decide)

/-- The first binding of a name in a line is the first hit of the search for it. The induction passes the characters
that an earlier binding has used, which hold no `$`. -/
theorem hitsFrom_find? {n : Text} (hn : Reference.isName n = true) : ∀ (s : Text) (skip column : Nat),
    '$' ∉ s.take skip →
    ((binding.hitsFrom skip column s).find? fun h => h.value.1 == '$' :: n).map (fun h => (h.start, h.value.2)) =
      ((bindingOf ('$' :: n)).firstHitFrom? column s).map fun h => (h.start, h.value)
  | [], _, _, _ => rfl
  | c :: s, skip + 1, column, hskip => by
    have hnone : bindingOf ('$' :: n) (c :: s) = none := by
      refine bindingOf_eq_none hn fun t r h => ?_
      obtain ⟨-, n', b, -, -, -, heq⟩ := binding_eq_some_iff.1 h
      exact hskip (by rw [List.take_succ_cons, (List.cons.inj heq).1]; exact List.mem_cons_self)
    simp only [hitsFrom, firstHitFrom?, hnone]
    exact hitsFrom_find? hn s skip (column + 1) fun hm => hskip (List.mem_cons_of_mem _ hm)
  | c :: s, 0, column, _ => by
    cases hb : binding (c :: s) with
    | none =>
      have hnone : bindingOf ('$' :: n) (c :: s) = none := bindingOf_eq_none hn fun t r h => by rw [hb] at h; cases h
      simp only [hitsFrom, firstHitFrom?, hb, hnone]
      exact hitsFrom_find? hn s 0 (column + 1) (by simp)
    | some found =>
      obtain ⟨⟨m, t⟩, r⟩ := found
      by_cases hm : m = '$' :: n
      · subst hm
        have hsome : bindingOf ('$' :: n) (c :: s) = some (t, r) := (bindingOf_eq_some_iff_binding hn).2 hb
        simp [hitsFrom, firstHitFrom?, hb, hsome]
      · have hnone : bindingOf ('$' :: n) (c :: s) = none := by
          refine bindingOf_eq_none hn fun t' r' h => ?_
          rw [hb] at h
          cases h
          exact hm rfl
        have hne : (m == '$' :: n) = false := by simpa using hm
        simp only [hitsFrom, firstHitFrom?, hb, hnone, List.find?_cons, hne]
        exact hitsFrom_find? hn s _ (column + 1) (not_mem_take_of_binding hb)

end Pattern

/-! ## Names that are scanned -/

/-- A prefix is a name. -/
theorem Reexport.isName_pre {content p : Text} {d : Reexport} (hd : d ∈ Reexport.scan content) (hp : d.pre = some p) :
    Reference.isName p = true := by
  obtain ⟨⟨line, k⟩, -, hline⟩ := List.mem_flatMap.1 hd
  obtain ⟨h, hh, rfl⟩ := List.mem_map.1 hline
  obtain ⟨rest, ht, -⟩ := Pattern.exists_of_mem_hits hh
  simp only [Pattern.forwardRule, Option.bind_eq_bind, Option.bind_eq_some_iff, Option.some.injEq] at ht
  obtain ⟨-, -, -, -, ⟨path, u⟩, -, heq⟩ := ht
  have hclause : (Pattern.optional Pattern.prefixClause u).1 = some p := by
    rw [← hp, ← (Prod.mk.inj heq).1]
  unfold Pattern.optional at hclause
  split at hclause
  · rename_i w rest' hw
    obtain rfl := Option.some.inj hclause
    simp only [Pattern.prefixClause, Option.bind_eq_bind, Option.bind_eq_some_iff] at hw
    obtain ⟨v, -, ⟨word, u'⟩, hword, -, -, v', -, heq'⟩ := hw
    obtain rfl := (Prod.mk.inj (Option.some.inj heq')).1
    exact (Pattern.word_eq_some_iff.1 hword).1
  · cases hclause

/-- The name of a mixin is a name without a sigil. -/
theorem Mixin.isName_of_mem_scan {content : Text} {file : Path} {m : Mixin} (hm : m ∈ Mixin.scan content file) :
    Reference.isName m.name = true := by
  obtain ⟨⟨k, h⟩, hhead, rfl⟩ := List.mem_map.1 hm
  obtain ⟨⟨line, k'⟩, -, hline⟩ := List.mem_flatMap.1 hhead
  obtain ⟨h', hh, heq⟩ := List.mem_map.1 hline
  obtain ⟨rfl, rfl⟩ := Prod.mk.inj heq
  obtain ⟨rest, ht, -⟩ := Pattern.exists_of_mem_hits hh
  obtain ⟨-, -, -, -, -, hname, -⟩ := Pattern.mixinHead_eq_some ht
  exact hname

/-- The name of a variable is a name behind a sigil. -/
theorem Variable.isName_of_mem_scan {content : Text} {file : Path} {v : Variable}
    (hv : v ∈ Variable.scan content file) : ∃ n, v.name = '$' :: n ∧ Reference.isName n = true := by
  obtain ⟨⟨line, k⟩, -, hline⟩ := List.mem_flatMap.1 hv
  obtain ⟨h, hh, rfl⟩ := List.mem_map.1 hline
  obtain ⟨rest, ht, -⟩ := Pattern.exists_of_mem_hits hh
  obtain ⟨-, n, b, hm, hname, -, -⟩ := Pattern.binding_eq_some_iff.1 ht
  exact ⟨n, hm, hname⟩

/-! ## The first definition of a name -/

/-- The first mixin of a name is the first of all mixins that has it. -/
theorem Mixin.find?_eq (content name : Text) (file : Path) :
    Mixin.find? content name file = (Mixin.scan content file).find? (·.name == name) := by
  rw [Mixin.scan, List.find?_map]
  rfl

theorem Text.isSome_after? (w : String) : ∀ t : Text, (Text.after? w t).isSome = Text.occurs w t
  | [] => by
    unfold Text.after? Text.occurs
    cases w.toList <;> rfl
  | c :: t => by
    unfold Text.after? Text.occurs
    rw [Option.orElse_eq_orElse, Option.orElse_eq_or, Option.isSome_or, List.isSome_isPrefixOf?_eq_isPrefixOf,
      Text.isSome_after? w t]

/-- Without a block comment, only the comment lines are left out. -/
theorem Variable.outsideComments_eq : ∀ {ls : List (Text × Nat)}, (∀ l ∈ ls, Text.occurs "/*" l.1 = false) →
    Variable.outsideComments false ls = ls.filter fun l => !Source.isCommentLine l.1
  | [], _ => rfl
  | l :: ls, h => by
    have hl : Text.after? "/*" l.1 = none := by
      rw [← Option.not_isSome_iff_eq_none, Text.isSome_after?, h l List.mem_cons_self]
      exact Bool.false_ne_true
    have ih := Variable.outsideComments_eq fun l' hl' => h l' (List.mem_cons_of_mem l hl')
    unfold Variable.outsideComments
    cases hc : Source.isCommentLine l.1 with
    | true => simp [hc, ih]
    | false => simp [hc, hl, ih]

/-- Where no line opens a block comment, the first binding of a name is the first of all bindings that has it. -/
theorem Variable.find?_eq {content n : Text} (file : Path) (hn : Reference.isName n = true)
    (hcontent : ∀ line ∈ content.lines, Text.occurs "/*" line = false) :
    Variable.find? content ('$' :: n) file = (Variable.scan content file).find? (·.name == '$' :: n) := by
  have hlines : ∀ l ∈ content.lines.zipIdx, Text.occurs "/*" l.1 = false :=
    fun l hl => hcontent l.1 (List.fst_mem_of_mem_zipIdx hl)
  rw [Variable.scan, Variable.outsideComments_eq hlines, List.find?_flatMap]
  show (Source.codeLines content).findSome? _ = (Source.codeLines content).findSome? _
  congr 1
  funext ⟨line, k⟩
  let bound (found : Nat × Text) : Variable := ⟨'$' :: n, file, k, found.1, valueIn found.2⟩
  have hline := congrArg (Option.map bound) (Pattern.hitsFrom_find? hn line 0 0 (by simp))
  rw [List.find?_map]
  simp only [Option.map_map] at hline
  refine hline.symm.trans ?_
  -- a hit that is found has the name asked for
  refine Option.map_congr fun h hh => ?_
  have hname : h.value.1 = '$' :: n := by simpa using List.find?_some hh
  simp [bound, hname]

end SassModules
