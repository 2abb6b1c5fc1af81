import SassModules.Proofs.Signature

/-!
# Rules on a line

The readers of `@use` and `@forward` differ in the keyword and in the clause behind the path, so both are one `rule`
(`useRule_eq`, `forwardRule_eq`). A rule that fills a line is read at its start (`rule_ruleLine`), with the clause that
was written (`optional_aliasClause`, `optional_prefixClause`), and nowhere behind it: every rule starts with an at-sign
and has two quotes, and behind the first quote of the line only one is left (`rule_eq_none_behind`). So a path may have
any keyword in it, and the line holds that one rule (`hits_ruleLine`) and none of another kind
(`hits_ruleLine_of_not_prefix`).
-/

namespace SassModules

/-- A path that can stand between quotes, apart from the signs of variables and comments. -/
structure IsPlainPath (path : Text) : Prop where
  ne_nil : path ≠ []
  plain : ∀ c ∈ path, c ∉ ['"', '\'', '$', '*', '\n']

instance (path : Text) : Decidable (IsPlainPath path) :=
  decidable_of_iff (path ≠ [] ∧ path.all (· ∉ ['"', '\'', '$', '*', '\n']) = true)
    ⟨fun ⟨h₁, h₂⟩ => ⟨h₁, by simpa using h₂⟩, fun ⟨h₁, h₂⟩ => ⟨h₁, by simpa using h₂⟩⟩

theorem IsPlainPath.not_mem {path : Text} (hpath : IsPlainPath path) {c : Char}
    (hc : c ∈ ['"', '\'', '$', '*', '\n']) : c ∉ path :=
  fun hmem => hpath.plain c hmem hc

/-! ## Hits of a pattern -/

namespace Pattern

variable {α : Type} {pat : Pattern α} {s : Text}

/-- A pattern that is read nowhere has no hits. -/
theorem hitsFrom_eq_nil (h : ∀ t, t <:+ s → pat t = none) (skip column : Nat) : pat.hitsFrom skip column s = [] := by
  induction s generalizing skip column with
  | nil => rw [hitsFrom]
  | cons c s ih =>
    have hrest : ∀ t, t <:+ s → pat t = none := fun t ht => h t (ht.trans (List.suffix_cons c s))
    cases skip with
    | zero =>
      rw [hitsFrom, h _ List.suffix_rfl]
      exact ih hrest 0 (column + 1)
    | succ skip =>
      rw [hitsFrom]
      exact ih hrest skip (column + 1)

theorem hits_eq_nil (h : ∀ t, t <:+ s → pat t = none) : pat.hits s = [] := hitsFrom_eq_nil h 0 0

/-- A pattern that is read at the start and nowhere behind it has one hit. -/
theorem hits_eq_singleton {c : Char} {value : α} {rest : Text} (hstart : pat (c :: s) = some (value, rest))
    (h : ∀ t, t <:+ s → pat t = none) : ∃ length, pat.hits (c :: s) = [⟨0, length, value⟩] := by
  rw [hits, hitsFrom, hstart]
  exact ⟨_, congrArg _ (hitsFrom_eq_nil h _ _)⟩

end Pattern

/-! ## The line of a rule -/

namespace Pattern

/-- A rule on a line: keyword, path between quotes and clause. -/
def ruleLine (keyword : String) (path clause : Text) : Text :=
  keyword.toList ++ (' ' :: '"' :: (path ++ '"' :: (clause ++ [';'])))

/-- The clause of a name that may be missing, with what is written behind the name. -/
def asClause (name? : Option Text) (behind : Text) : Text := name?.elim [] fun n => " as ".toList ++ (n ++ behind)

variable {name? : Option Text} {path clause behind : Text} {keyword : String} {c : Char}

theorem not_mem_asClause (hnames : ∀ n ∈ name?, Reference.isName n = true) (hc : Text.isNameChar c = false)
    (hsigns : c ∉ " as ".toList ++ behind) : c ∉ asClause name? behind := by
  cases name? with
  | none => exact List.not_mem_nil
  | some n =>
    have hn := not_mem_of_isName (hnames n rfl) hc
    simp only [List.mem_append, not_or] at hsigns
    simp only [asClause, Option.elim_some, List.mem_append, not_or]
    exact ⟨hsigns.1, hn, hsigns.2⟩

theorem not_mem_ruleLine (hsigns : c ∉ keyword.toList ++ [' ', '"', ';']) (hpath : c ∉ path) (hclause : c ∉ clause) :
    c ∉ ruleLine keyword path clause := by
  simp only [List.mem_append, List.mem_cons, List.not_mem_nil, or_false, not_or] at hsigns
  simp only [ruleLine, List.mem_append, List.mem_cons, List.not_mem_nil, or_false, not_or]
  exact ⟨hsigns.1, hsigns.2.1, hsigns.2.2.1, hpath, hsigns.2.2.1, hclause, hsigns.2.2.2⟩

end Pattern

/-! ## Reading a rule -/

namespace Pattern

/-- Either quote. -/
def isQuote (c : Char) : Bool := c == '"' || c == '\''

/-- A rule with a keyword in front and a clause behind its path. -/
def rule (keyword : String) (clause : Pattern Text) : Pattern (Text × Option Text) := fun s =>
  ((literal keyword s).bind blanks1).bind fun s => (quotedPath s).bind fun q =>
    some ((q.1, (optional clause q.2).1), (optional clause q.2).2)

theorem useRule_eq : useRule = rule "@use" aliasClause := by
  funext s
  simp only [useRule, rule, Option.bind_eq_bind, Option.bind_assoc]

theorem forwardRule_eq : forwardRule = rule "@forward" prefixClause := by
  funext s
  simp only [forwardRule, rule, Option.bind_eq_bind, Option.bind_assoc]

section Read

variable {path u n : Text}

/-- One blank in front of another character. -/
theorem blanks1_blank (hu : ∀ c ∈ u.head?, Text.isBlank c = false) : blanks1 (' ' :: u) = some u := by
  refine blanks1_eq_some_iff.2 ⟨[' '], List.cons_ne_nil _ _, ?_, rfl, hu⟩
  intro c hc
  obtain rfl := List.mem_singleton.1 hc
  decide

theorem quotedPath_append (hpath : IsPlainPath path) (rest : Text) :
    quotedPath ('"' :: (path ++ '"' :: rest)) = some (path, rest) := by
  have hrun : run1 (fun c => c != '"' && c != '\'') (path ++ '"' :: rest) = some (path, '"' :: rest) := by
    refine run1_eq_some_iff.2 ⟨hpath.ne_nil, ?_, rfl, ?_⟩
    · intro c hc
      have hplain := hpath.plain c hc
      simp only [List.mem_cons, not_or] at hplain
      simp [hplain.1, hplain.2.1]
    · rintro c ⟨⟩
      decide
  simp only [quotedPath, Option.bind_eq_bind, hrun]
  rfl

/-- A rule is read at the start of its line. -/
theorem rule_ruleLine (keyword : String) (clause : Pattern Text) (written : Text) (hpath : IsPlainPath path) :
    rule keyword clause (ruleLine keyword path written) =
      some ((path, (optional clause (written ++ [';'])).1), (optional clause (written ++ [';'])).2) := by
  have hkeyword : literal keyword (ruleLine keyword path written) =
      some (' ' :: '"' :: (path ++ '"' :: (written ++ [';']))) := literal_eq_some_iff.2 rfl
  have hblank : blanks1 (' ' :: '"' :: (path ++ '"' :: (written ++ [';']))) =
      some ('"' :: (path ++ '"' :: (written ++ [';']))) := blanks1_blank (by rintro c ⟨⟩; decide)
  rw [rule, hkeyword, Option.bind_some, hblank, Option.bind_some, quotedPath_append hpath, Option.bind_some]

theorem head?_append_of_isName (hn : Reference.isName n = true) : ∀ c ∈ (n ++ u).head?, Text.isBlank c = false := by
  obtain ⟨hne, hchars⟩ := isName_iff.1 hn
  obtain ⟨c, m, rfl⟩ := List.exists_cons_of_ne_nil hne
  rintro c' ⟨⟩
  exact Text.isBlank_of_isNameChar (hchars c List.mem_cons_self)

theorem asKeyword_append (hn : Reference.isName n = true) (u : Text) :
    asKeyword (" as ".toList ++ (n ++ u)) = some (n ++ u) := by
  have hstart : blanks1 (" as ".toList ++ (n ++ u)) = some ('a' :: 's' :: ' ' :: (n ++ u)) :=
    blanks1_blank (by rintro c ⟨⟩; decide)
  have has : literal "as" ('a' :: 's' :: ' ' :: (n ++ u)) = some (' ' :: (n ++ u)) := literal_eq_some_iff.2 rfl
  simp only [asKeyword, Option.bind_eq_bind, hstart, Option.bind_some, has]
  exact blanks1_blank (head?_append_of_isName hn)

/-- The alias clause is read back, or none if it is missing. -/
theorem optional_aliasClause {aliasName : Option Text} (h : ∀ n ∈ aliasName, Reference.isName n = true) :
    optional aliasClause (asClause aliasName [] ++ [';']) = (aliasName, [';']) := by
  cases aliasName with
  | none => rfl
  | some n =>
    have hword : word (n ++ [';']) = some (n, [';']) :=
      word_eq_some_iff.2 ⟨h n rfl, rfl, by rintro c ⟨⟩; decide⟩
    have hclause : aliasClause (asClause (some n) [] ++ [';']) = some (n, [';']) := by
      have hwritten : asClause (some n) [] ++ [';'] = " as ".toList ++ (n ++ [';']) := by simp [asClause]
      rw [hwritten, aliasClause, asKeyword_append (h n rfl)]
      exact hword
    rw [optional, hclause]

/-- The prefix clause is read back with its hyphen, or none if it is missing. -/
theorem optional_prefixClause {stem : Option Text} (h : ∀ n ∈ stem, Reference.isName n = true) :
    optional prefixClause (asClause stem ['-', '*'] ++ [';']) = (stem.map (· ++ ['-']), [';']) := by
  cases stem with
  | none => rfl
  | some n =>
    obtain ⟨hne, hchars⟩ := isName_iff.1 (h n rfl)
    have hname : Reference.isName (n ++ ['-']) = true := by
      refine isName_iff.2 ⟨by simp, fun c hc => ?_⟩
      rcases List.mem_append.1 hc with hc | hc
      · exact hchars c hc
      · obtain rfl := List.mem_singleton.1 hc
        decide
    have hword : word ((n ++ ['-']) ++ ['*', ';']) = some (n ++ ['-'], ['*', ';']) :=
      word_eq_some_iff.2 ⟨hname, rfl, by rintro c ⟨⟩; decide⟩
    have hlength : 1 ≤ n.length := List.length_pos_of_ne_nil hne
    have hclause : prefixClause (asClause (some n) ['-', '*'] ++ [';']) = some (n ++ ['-'], [';']) := by
      have hwritten : asClause (some n) ['-', '*'] ++ [';'] = " as ".toList ++ ((n ++ ['-']) ++ ['*', ';']) := by
        simp [asClause]
      have hend : (n ++ ['-']).getLast? = some '-' := List.getLast?_concat
      have hstar : literal "*" ['*', ';'] = some [';'] := rfl
      rw [hwritten, prefixClause, asKeyword_append hname]
      simp only [Option.bind_eq_bind, Option.bind_some, hword, hend, hstar]
      simp [guard, hlength]
    rw [optional, hclause]
    rfl

end Read

/-! ## Where no rule is read -/

section Unread

variable {keyword : String} {clause : Pattern Text} {s t a b : Text} {x : (Text × Option Text) × Text}

theorem quotedPath_eq_some {y : Text × Text} (h : quotedPath s = some y) : 2 ≤ s.countP isQuote := by
  cases s with
  | nil => cases h
  | cons q s =>
    simp only [quotedPath, Option.bind_eq_bind, Option.bind_eq_some_iff] at h
    obtain ⟨⟨⟩, hquote, ⟨path, rest⟩, hrun, hend⟩ := h
    obtain ⟨-, -, rfl, hstop⟩ := run1_eq_some_iff.1 hrun
    have hq : isQuote q = true := by
      by_contra hno
      rw [guard, if_neg (show ¬ (q == '"' || q == '\'') = true from hno)] at hquote
      cases hquote
    cases rest with
    | nil => cases hend
    | cons q' rest =>
      have hq' : isQuote q' = true := by
        have hout := hstop q' rfl
        by_contra hno
        simp [isQuote] at hno
        simp [hno] at hout
      rw [List.countP_cons_of_pos hq, List.countP_append, List.countP_cons_of_pos hq']
      omega

/-- A rule begins with its keyword and has two quotes. -/
theorem rule_eq_some (h : rule keyword clause s = some x) : keyword.toList <+: s ∧ 2 ≤ s.countP isQuote := by
  simp only [rule, Option.bind_eq_some_iff] at h
  obtain ⟨v, ⟨u, hu, hv⟩, y, hy, -⟩ := h
  obtain rfl := literal_eq_some_iff.1 hu
  obtain ⟨blank, -, -, rfl, -⟩ := blanks1_eq_some_iff.1 hv
  refine ⟨List.prefix_append _ _, ?_⟩
  have hquotes := quotedPath_eq_some hy
  rw [List.countP_append, List.countP_append]
  omega

/-- An end of a text that begins with a character of the second part only is an end of that part. -/
theorem suffix_of_head?_notMem {c : Char} (hhead : t.head? = some c) (hc : c ∉ a) (ht : t <:+ a ++ b) : t <:+ b := by
  induction a with
  | nil => exact ht
  | cons c' a ih =>
    rw [List.mem_cons, not_or] at hc
    rcases List.suffix_cons_iff.1 ht with rfl | ht
    · exact absurd (Option.some.inj hhead).symm hc.1
    · exact ih hc.2 ht

/-- No rule is read in a text that has at-signs in its second part only, and at most one quote there. -/
theorem rule_eq_none_of_suffix (hkeyword : keyword.toList.head? = some '@') (ha : '@' ∉ a)
    (hb : b.countP isQuote ≤ 1) (ht : t <:+ a ++ b) : rule keyword clause t = none := by
  cases hx : rule keyword clause t with
  | none => rfl
  | some x =>
    obtain ⟨⟨rest, rfl⟩, hquotes⟩ := rule_eq_some hx
    have hhead : (keyword.toList ++ rest).head? = some '@' := by
      rw [List.head?_append, hkeyword]
      rfl
    have hsuffix := suffix_of_head?_notMem hhead ha ht
    have hle := hsuffix.sublist.countP_le (p := isQuote)
    omega

theorem binding_eq_none (h : '$' ∉ t) : binding t = none := by
  cases hx : binding t with
  | none => rfl
  | some x =>
    obtain ⟨⟨m, r⟩, rest⟩ := x
    obtain ⟨-, n, blank, -, -, -, rfl⟩ := binding_eq_some_iff.1 hx
    exact absurd List.mem_cons_self h

end Unread

/-! ## What a line holds -/

section Hits

variable {k : String} {clause : Pattern Text} {path written front t : Text}

theorem countP_isQuote_eq_zero (h : '"' ∉ t) (h' : '\'' ∉ t) : t.countP isQuote = 0 := by
  rw [List.countP_eq_zero]
  intro c hc hquote
  rcases Bool.or_eq_true_iff.1 hquote with heq | heq
  · exact h (beq_iff_eq.1 heq ▸ hc)
  · exact h' (beq_iff_eq.1 heq ▸ hc)

/-- Behind the first character of a rule's line no rule is read, whatever its path is. -/
theorem rule_eq_none_behind (hk : k.toList.head? = some '@') (hpath : IsPlainPath path)
    (hwritten : '"' ∉ written ∧ '\'' ∉ written) (hfront : '@' ∉ front)
    (ht : t <:+ front ++ (' ' :: '"' :: (path ++ '"' :: (written ++ [';'])))) : rule k clause t = none := by
  have hsplit : front ++ (' ' :: '"' :: (path ++ '"' :: (written ++ [';']))) =
      (front ++ [' ', '"']) ++ (path ++ '"' :: (written ++ [';'])) := by simp
  rw [hsplit] at ht
  refine rule_eq_none_of_suffix hk ?_ ?_ ht
  · simpa using hfront
  · have hpath' := countP_isQuote_eq_zero (hpath.not_mem (by decide)) (hpath.not_mem (by decide))
    have hwritten' := countP_isQuote_eq_zero hwritten.1 hwritten.2
    rw [List.countP_append, hpath', List.countP_cons_of_pos rfl, List.countP_append, hwritten']
    decide

theorem ruleLine_eq_cons {keyword : String} (hkeyword : keyword.toList = '@' :: front) :
    ruleLine keyword path written = '@' :: (front ++ (' ' :: '"' :: (path ++ '"' :: (written ++ [';'])))) := by
  rw [ruleLine, hkeyword, List.cons_append]

/-- The line of a rule holds that rule once. -/
theorem hits_ruleLine (keyword : String) (clause : Pattern Text) (hkeyword : keyword.toList = '@' :: front)
    (hfront : '@' ∉ front) (hpath : IsPlainPath path) (hwritten : '"' ∉ written ∧ '\'' ∉ written) :
    ∃ length, (rule keyword clause).hits (ruleLine keyword path written) =
      [⟨0, length, path, (optional clause (written ++ [';'])).1⟩] := by
  have hstart := rule_ruleLine keyword clause written hpath
  rw [ruleLine_eq_cons hkeyword] at hstart ⊢
  refine hits_eq_singleton hstart fun t ht => ?_
  exact rule_eq_none_behind (by rw [hkeyword]; rfl) hpath hwritten hfront ht

/-- The line of a rule holds no rule with another keyword. -/
theorem hits_ruleLine_of_not_prefix (keyword : String) (hkeyword : keyword.toList = '@' :: front)
    (hfront : '@' ∉ front) (hk : k.toList.head? = some '@')
    (hother : ¬ k.toList <+: ruleLine keyword path written) (hpath : IsPlainPath path)
    (hwritten : '"' ∉ written ∧ '\'' ∉ written) : (rule k clause).hits (ruleLine keyword path written) = [] := by
  rw [ruleLine_eq_cons hkeyword] at hother ⊢
  refine hits_eq_nil fun t ht => ?_
  rcases List.suffix_cons_iff.1 ht with heq | ht
  · cases hx : rule k clause t with
    | none => rfl
    | some x =>
      rw [← heq] at hother
      exact absurd (rule_eq_some hx).1 hother
  · exact rule_eq_none_behind hk hpath hwritten hfront ht

/-- A text without an at-sign holds no rule. -/
theorem hits_rule_eq_nil (hk : k.toList.head? = some '@') (ht : '@' ∉ t) : (rule k clause).hits t = [] := by
  refine hits_eq_nil fun u hu => ?_
  have hnil : ([] : Text).countP isQuote ≤ 1 := by decide
  rw [← List.append_nil t] at hu
  exact rule_eq_none_of_suffix hk ht hnil hu

theorem hits_binding_eq_nil (ht : '$' ∉ t) : binding.hits t = [] :=
  hits_eq_nil fun _ hu => binding_eq_none fun hmem => ht (hu.subset hmem)

end Hits

end Pattern

end SassModules
