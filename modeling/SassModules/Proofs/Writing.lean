import SassModules.Proofs.Rules

/-!
# Written declarations are read back

A `@use`, a `@forward` and the binding of a variable can each be written on a line (`Declaration.line`). Whatever mixture
of them a text holds, the three readers find exactly what was written, each its own kind (`scan_written`).

A line is read by all three. The rule on it is found once by its own reader; a binding needs a `$`, which no rule has,
and a rule an at-sign, which no binding has. No line begins as a comment or opens a block comment, although a prefix
clause has an asterisk (`occurs_line`), so each line counts, and a text is read line by line (`Fills.flatMap_lines`).
-/

namespace SassModules

/-! ## Declarations on lines -/

/-- A declaration that fills a line. The prefix of a `@forward` is given without the hyphen at its end. -/
inductive Declaration where
  | use (path : Text) (aliasName : Option Text)
  | forward (path : Text) (stem : Option Text)
  | bind (name value : Text)
deriving DecidableEq

/-- A value that can stand behind a colon: it has no white space at its ends and no sign of a statement in it. -/
structure IsPlainValue (value : Text) : Prop where
  ne_nil : value ≠ []
  trimmed : value.trim = value
  plain : ∀ c ∈ value, c ∉ ['\n', ';', '$', '@']
  uncommented : Text.occurs "/*" value = false

theorem IsPlainValue.not_mem {value : Text} (hvalue : IsPlainValue value) {c : Char}
    (hc : c ∈ ['\n', ';', '$', '@']) : c ∉ value :=
  fun hmem => hvalue.plain c hmem hc

namespace Declaration

/-- `@use "path" as alias;`, the clause only with an alias. -/
def useLine (path : Text) (aliasName : Option Text) : Text :=
  "@use \"".toList ++ path ++ "\"".toList ++ aliasName.elim [] (" as ".toList ++ ·) ++ ";".toList

/-- `@forward "path" as stem-*;`, the clause only with a stem. -/
def forwardLine (path : Text) (stem : Option Text) : Text :=
  "@forward \"".toList ++ path ++ "\"".toList ++ stem.elim [] (" as ".toList ++ · ++ "-*".toList) ++ ";".toList

/-- `$name: value;` -/
def bindLine (name value : Text) : Text := "$".toList ++ name ++ ": ".toList ++ value ++ ";".toList

/-- The line of a declaration. -/
def line : Declaration → Text
  | .use path aliasName => useLine path aliasName
  | .forward path stem => forwardLine path stem
  | .bind name value => bindLine name value

/-- Can the declaration be written on a line? -/
def IsWritable : Declaration → Prop
  | .use path aliasName => IsPlainPath path ∧ ∀ n ∈ aliasName, Reference.isName n = true
  | .forward path stem => IsPlainPath path ∧ ∀ n ∈ stem, Reference.isName n = true
  | .bind name value => Reference.isName name = true ∧ IsPlainValue value

/-- The `@use` that a declaration on the given line is. -/
def import? (n : Nat) : Declaration → Option Import
  | .use path aliasName => some ⟨path, aliasName.getD (ModulePath.defaultAlias path), n⟩
  | _ => none

/-- The `@forward` that a declaration on the given line is; its prefix ends in a hyphen. -/
def reexport? (n : Nat) : Declaration → Option Reexport
  | .forward path stem => some ⟨path, stem.map (· ++ ['-']), n⟩
  | _ => none

/-- The variable that a declaration on the given line binds. -/
def bound? (file : Path) (n : Nat) : Declaration → Option Variable
  | .bind name value => some ⟨'$' :: name, file, n, 0, some value⟩
  | _ => none

/-- Declarations on lines of their own, with a line feed between them. -/
def separated (ds : List Declaration) : Text := Text.join "\n" (ds.map line)

/-- Declarations on lines of their own, with a line feed behind each. -/
def terminated (ds : List Declaration) : Text := ds.flatMap fun d => d.line ++ ['\n']

instance (value : Text) : Decidable (IsPlainValue value) :=
  decidable_of_iff (value ≠ [] ∧ value.trim = value ∧ value.all (· ∉ ['\n', ';', '$', '@']) = true ∧
      Text.occurs "/*" value = false)
    ⟨fun ⟨h₁, h₂, h₃, h₄⟩ => ⟨h₁, h₂, by simpa using h₃, h₄⟩, fun ⟨h₁, h₂, h₃, h₄⟩ => ⟨h₁, h₂, by simpa using h₃, h₄⟩⟩

theorem line_use (path : Text) (aliasName : Option Text) :
    line (.use path aliasName) = Pattern.ruleLine "@use" path (Pattern.asClause aliasName []) := by
  show useLine path aliasName = _
  unfold useLine Pattern.ruleLine Pattern.asClause
  cases aliasName <;> simp

theorem line_forward (path : Text) (stem : Option Text) :
    line (.forward path stem) = Pattern.ruleLine "@forward" path (Pattern.asClause stem ['-', '*']) := by
  show forwardLine path stem = _
  unfold forwardLine Pattern.ruleLine Pattern.asClause
  cases stem <;> simp

theorem line_bind (name value : Text) : line (.bind name value) = '$' :: (name ++ (':' :: ' ' :: (value ++ [';']))) := by
  show bindLine name value = _
  unfold bindLine
  simp

instance : (d : Declaration) → Decidable d.IsWritable
  | .use path aliasName => inferInstanceAs (Decidable (IsPlainPath path ∧ ∀ n ∈ aliasName, Reference.isName n = true))
  | .forward path stem => inferInstanceAs (Decidable (IsPlainPath path ∧ ∀ n ∈ stem, Reference.isName n = true))
  | .bind name value => inferInstanceAs (Decidable (Reference.isName name = true ∧ IsPlainValue value))

end Declaration

/-! ## What each reader finds in a line -/

namespace Declaration

open Pattern

section Lines

variable {d : Declaration} {name value : Text} {name? : Option Text}

theorem quotes_not_mem_asClause {behind : Text} (hnames : ∀ n ∈ name?, Reference.isName n = true)
    (hbehind : behind = [] ∨ behind = ['-', '*']) : '"' ∉ asClause name? behind ∧ '\'' ∉ asClause name? behind := by
  rcases hbehind with rfl | rfl
  · exact ⟨not_mem_asClause hnames (by decide) (by decide), not_mem_asClause hnames (by decide) (by decide)⟩
  · exact ⟨not_mem_asClause hnames (by decide) (by decide), not_mem_asClause hnames (by decide) (by decide)⟩

/-- A line of a binding holds no sign but those of its name, its value and the binding itself. -/
theorem not_mem_bindLine {c : Char} (hname : Reference.isName name = true) (hvalue : c ∉ value)
    (hc : Text.isNameChar c = false) (hsigns : c ∉ [':', ' ', ';']) : c ∉ name ++ (':' :: ' ' :: (value ++ [';'])) := by
  simp only [List.mem_cons, List.not_mem_nil, or_false, not_or] at hsigns
  simp only [List.mem_append, List.mem_cons, List.not_mem_nil, or_false, not_or]
  exact ⟨not_mem_of_isName hname hc, hsigns.1, hsigns.2.1, hvalue, hsigns.2.2⟩

/-- The line of a binding holds no rule. -/
theorem hits_rule_bind {k : String} {clause : Pattern Text} (hk : k.toList.head? = some '@')
    (hname : Reference.isName name = true) (hvalue : IsPlainValue value) :
    (rule k clause).hits (line (.bind name value)) = [] := by
  refine hits_rule_eq_nil hk ?_
  rw [line_bind, List.mem_cons, not_or]
  exact ⟨by decide, not_mem_bindLine hname (hvalue.not_mem (by decide)) (by decide) (by decide)⟩

/-- The `@use` rules of a line are the declaration on it. -/
theorem map_useRule_hits (hd : d.IsWritable) (n : Nat) :
    ((useRule.hits d.line).map fun h => (⟨h.value.1, h.value.2.getD (ModulePath.defaultAlias h.value.1), n⟩ : Import)) =
      (d.import? n).toList := by
  rw [useRule_eq]
  cases d with
  | use path aliasName =>
    obtain ⟨hpath, hname⟩ := hd
    obtain ⟨length, hhits⟩ := hits_ruleLine "@use" aliasClause rfl (by decide) hpath
      (quotes_not_mem_asClause hname (Or.inl rfl))
    rw [line_use, hhits, optional_aliasClause hname]
    rfl
  | forward path stem =>
    obtain ⟨hpath, hname⟩ := hd
    rw [line_forward, hits_ruleLine_of_not_prefix "@forward" rfl (by decide) rfl _ hpath
      (quotes_not_mem_asClause hname (Or.inr rfl))]
    · rfl
    · rintro ⟨t, ht⟩
      cases ht
  | bind name value =>
    obtain ⟨hname, hvalue⟩ := hd
    rw [hits_rule_bind rfl hname hvalue]
    rfl

/-- The `@forward` rules of a line are the declaration on it. -/
theorem map_forwardRule_hits (hd : d.IsWritable) (n : Nat) :
    ((forwardRule.hits d.line).map fun h => (⟨h.value.1, h.value.2, n⟩ : Reexport)) = (d.reexport? n).toList := by
  rw [forwardRule_eq]
  cases d with
  | use path aliasName =>
    obtain ⟨hpath, hname⟩ := hd
    rw [line_use, hits_ruleLine_of_not_prefix "@use" rfl (by decide) rfl _ hpath
      (quotes_not_mem_asClause hname (Or.inl rfl))]
    · rfl
    · rintro ⟨t, ht⟩
      cases ht
  | forward path stem =>
    obtain ⟨hpath, hname⟩ := hd
    obtain ⟨length, hhits⟩ := hits_ruleLine "@forward" prefixClause rfl (by decide) hpath
      (quotes_not_mem_asClause hname (Or.inr rfl))
    rw [line_forward, hhits, optional_prefixClause hname]
    rfl
  | bind name value =>
    obtain ⟨hname, hvalue⟩ := hd
    rw [hits_rule_bind rfl hname hvalue]
    rfl

/-- The value of a written binding is read back. -/
theorem valueIn_written (hvalue : IsPlainValue value) : Variable.valueIn (' ' :: (value ++ [';'])) = some value := by
  have htake : (' ' :: (value ++ [';'])).takeWhile (· != ';') = ' ' :: value := by
    have hrun : run (· != ';') ((' ' :: value) ++ [';']) = (' ' :: value, [';']) := by
      refine run_append ?_ (by rintro c ⟨⟩; decide)
      intro c hc
      rcases List.mem_cons.1 hc with rfl | hc
      · decide
      · have hne : c ≠ ';' := fun heq => hvalue.not_mem (by decide) (heq ▸ hc)
        simpa using hne
    exact (Prod.mk.inj hrun).1
  rw [Variable.valueIn, htake, Text.trim_cons_of_isBlank (by decide), hvalue.trimmed, if_neg hvalue.ne_nil]

/-- The bindings of a line are the declaration on it. -/
theorem map_binding_hits (hd : d.IsWritable) (file : Path) (n : Nat) :
    ((binding.hits d.line).map fun h => (⟨h.value.1, file, n, h.start, Variable.valueIn h.value.2⟩ : Variable)) =
      (d.bound? file n).toList := by
  cases d with
  | use path aliasName =>
    obtain ⟨hpath, hname⟩ := hd
    rw [line_use, hits_binding_eq_nil (not_mem_ruleLine (by decide) (hpath.not_mem (by decide))
      (not_mem_asClause hname (by decide) (by decide)))]
    rfl
  | forward path stem =>
    obtain ⟨hpath, hname⟩ := hd
    rw [line_forward, hits_binding_eq_nil (not_mem_ruleLine (by decide) (hpath.not_mem (by decide))
      (not_mem_asClause hname (by decide) (by decide)))]
    rfl
  | bind name value =>
    obtain ⟨hname, hvalue⟩ := hd
    have hstart : binding ('$' :: (name ++ (':' :: ' ' :: (value ++ [';'])))) =
        some (('$' :: name, ' ' :: (value ++ [';'])), ' ' :: (value ++ [';'])) :=
      binding_eq_some_iff.2 ⟨rfl, name, [], rfl, hname, by simp, rfl⟩
    have hbehind : '$' ∉ name ++ (':' :: ' ' :: (value ++ [';'])) :=
      not_mem_bindLine hname (hvalue.not_mem (by decide)) (by decide) (by decide)
    obtain ⟨length, hhits⟩ := hits_eq_singleton hstart fun t ht => binding_eq_none fun hmem => hbehind (ht.subset hmem)
    rw [line_bind, hhits, List.map_singleton, valueIn_written hvalue]
    rfl

end Lines

/-! ## Lines without comments -/

section Comments

variable {d : Declaration} {a t : Text}

theorem occurs_cons (c : Char) (t : Text) :
    Text.occurs "/*" (c :: t) = (['/', '*'].isPrefixOf (c :: t) || Text.occurs "/*" t) := rfl

theorem occurs_eq_false (h : '*' ∉ t) : Text.occurs "/*" t = false := by
  induction t with
  | nil => rfl
  | cons c t ih =>
    obtain ⟨-, ht⟩ := not_or.1 (mt List.mem_cons.2 h)
    have hstart : ['/', '*'].isPrefixOf (c :: t) = false := by
      rw [← Bool.not_eq_true, List.isPrefixOf_iff_prefix]
      exact fun hopen => h (hopen.subset (by decide))
    rw [occurs_cons, hstart, ih ht]
    rfl

/-- A block comment does not open across a character that is no asterisk. -/
theorem occurs_append_cons {c : Char} (hc : c ≠ '*') :
    Text.occurs "/*" (a ++ c :: t) = (Text.occurs "/*" a || Text.occurs "/*" (c :: t)) := by
  induction a with
  | nil => rfl
  | cons c' a ih =>
    have hstart : ['/', '*'].isPrefixOf (c' :: (a ++ c :: t)) = ['/', '*'].isPrefixOf (c' :: a) := by
      cases a with
      | nil => simp [List.isPrefixOf, hc.symm]
      | cons c'' a => rfl
    rw [List.cons_append, occurs_cons, occurs_cons, ih, hstart, Bool.or_assoc]

/-- No line opens a block comment. -/
theorem occurs_line (hd : d.IsWritable) : Text.occurs "/*" d.line = false := by
  cases d with
  | use path aliasName =>
    obtain ⟨hpath, hname⟩ := hd
    rw [line_use]
    exact occurs_eq_false (not_mem_ruleLine (by decide) (hpath.not_mem (by decide))
      (not_mem_asClause hname (by decide) (by decide)))
  | forward path stem =>
    obtain ⟨hpath, hname⟩ := hd
    cases stem with
    | none =>
      rw [line_forward]
      exact occurs_eq_false (not_mem_ruleLine (by decide) (hpath.not_mem (by decide)) List.not_mem_nil)
    | some w =>
      -- the only asterisk stands behind a hyphen
      have hsplit : line (.forward path (some w)) =
          ("@forward \"".toList ++ (path ++ ("\" as ".toList ++ w))) ++ '-' :: ['*', ';'] := by
        rw [line_forward]
        simp [ruleLine, asClause]
      have hfront : '*' ∉ "@forward \"".toList ++ (path ++ ("\" as ".toList ++ w)) := by
        simp only [List.mem_append, not_or]
        exact ⟨by decide, hpath.not_mem (by decide), by decide, not_mem_of_isName (hname w rfl) (by decide)⟩
      rw [hsplit, occurs_append_cons (by decide), occurs_eq_false hfront]
      rfl
  | bind name value =>
    obtain ⟨hname, hvalue⟩ := hd
    have hsplit : line (.bind name value) = ('$' :: name ++ [':']) ++ ' ' :: (value ++ [';']) := by simp [line_bind]
    have hfront : '*' ∉ '$' :: name ++ [':'] := by
      simp only [List.cons_append, List.mem_cons, List.mem_append, List.not_mem_nil, or_false, not_or]
      exact ⟨by decide, not_mem_of_isName hname (by decide), by decide⟩
    have hblank : Text.occurs "/*" (' ' :: (value ++ [';'])) = Text.occurs "/*" (value ++ [';']) := rfl
    rw [hsplit, occurs_append_cons (by decide), occurs_eq_false hfront, hblank, occurs_append_cons (by decide),
      hvalue.uncommented]
    rfl

/-- No line is a comment. -/
theorem isCommentLine_line (d : Declaration) : Source.isCommentLine d.line = false := by
  cases d with
  | use path aliasName => cases aliasName <;> rfl
  | forward path stem => cases stem <;> rfl
  | bind name value => rfl

theorem newline_not_mem_line (hd : d.IsWritable) : '\n' ∉ d.line := by
  cases d with
  | use path aliasName =>
    rw [line_use]
    exact not_mem_ruleLine (by decide) (hd.1.not_mem (by decide)) (not_mem_asClause hd.2 (by decide) (by decide))
  | forward path stem =>
    rw [line_forward]
    exact not_mem_ruleLine (by decide) (hd.1.not_mem (by decide)) (not_mem_asClause hd.2 (by decide) (by decide))
  | bind name value =>
    rw [line_bind, List.mem_cons, not_or]
    exact ⟨by decide, not_mem_bindLine hd.1 (hd.2.not_mem (by decide)) (by decide) (by decide)⟩

end Comments

/-! ## The readers of a text -/

section Texts

variable {ds : List Declaration} {content : Text}

/-- The lines of a text are the declarations, and at most one empty line behind them. -/
structure Fills (ds : List Declaration) (content : Text) : Prop where
  writable : ∀ d ∈ ds, d.IsWritable
  lines_eq : content.lines = ds.map line ∨ content.lines = ds.map line ++ [[]]

theorem fills_separated (h : ∀ d ∈ ds, d.IsWritable) : Fills ds (separated ds) := by
  refine ⟨h, ?_⟩
  cases ds with
  | nil => exact Or.inr rfl
  | cons d ds =>
    refine Or.inl (List.splitOn_intercalate '\n' ?_ (List.cons_ne_nil _ _))
    intro l hl
    obtain ⟨d', hd', rfl⟩ := List.mem_map.1 hl
    exact newline_not_mem_line (h d' hd')

theorem lines_terminated (h : ∀ d ∈ ds, d.IsWritable) : (terminated ds).lines = ds.map line ++ [[]] := by
  induction ds with
  | nil => rfl
  | cons d ds ih =>
    obtain ⟨hd, hds⟩ := List.forall_mem_cons.1 h
    have hsplit : terminated (d :: ds) = d.line ++ '\n' :: terminated ds := by simp [terminated]
    rw [hsplit, Text.lines_append (newline_not_mem_line hd), Text.lines_cons, if_pos rfl, ih hds]
    simp

theorem fills_terminated (h : ∀ d ∈ ds, d.IsWritable) : Fills ds (terminated ds) :=
  ⟨h, Or.inr (lines_terminated h)⟩

/-- A reader that goes line by line and finds nothing in an empty line finds what each declaration gives it. -/
theorem Fills.flatMap_lines {β : Type} (h : Fills ds content) {f : Text × Nat → List β}
    (g : Declaration → Nat → Option β) (hempty : ∀ n, f ([], n) = [])
    (hline : ∀ d, d.IsWritable → ∀ n, f (d.line, n) = (g d n).toList) :
    content.lines.zipIdx.flatMap f = ds.zipIdx.filterMap fun x => g x.1 x.2 := by
  have hdeclared : (ds.map line).zipIdx.flatMap f = ds.zipIdx.filterMap fun x => g x.1 x.2 := by
    rw [List.zipIdx_map, List.flatMap_map, List.filterMap_eq_flatMap_toList]
    refine List.flatMap_congr fun x hx => ?_
    exact hline x.1 (h.writable _ (List.fst_mem_of_mem_zipIdx hx)) x.2
  rcases h.lines_eq with hlines | hlines
  · rw [hlines, hdeclared]
  · rw [hlines, List.zipIdx_append, List.flatMap_append, hdeclared, List.zipIdx_singleton, List.flatMap_singleton, hempty,
      List.append_nil]

theorem Fills.of_mem_lines (h : Fills ds content) {l : Text} (hl : l ∈ content.lines) :
    l = [] ∨ ∃ d ∈ ds, d.line = l := by
  rcases h.lines_eq with hlines | hlines
  · rw [hlines] at hl
    exact Or.inr (List.mem_map.1 hl)
  · rw [hlines] at hl
    rcases List.mem_append.1 hl with hl | hl
    · exact Or.inr (List.mem_map.1 hl)
    · exact Or.inl (List.mem_singleton.1 hl)

/-- Every line holds code. -/
theorem Fills.codeLines_eq (h : Fills ds content) : Source.codeLines content = content.lines.zipIdx := by
  refine List.filter_eq_self.2 fun l hl => ?_
  rcases h.of_mem_lines (List.fst_mem_of_mem_zipIdx hl) with heq | ⟨d, -, heq⟩
  · rw [heq]
    rfl
  · rw [← heq, isCommentLine_line]
    rfl

theorem Fills.outsideComments_eq (h : Fills ds content) :
    Variable.outsideComments false content.lines.zipIdx = content.lines.zipIdx := by
  rw [Variable.outsideComments_eq]
  · exact h.codeLines_eq
  · intro l hl
    rcases h.of_mem_lines (List.fst_mem_of_mem_zipIdx hl) with heq | ⟨d, hd, heq⟩
    · rw [heq]
      rfl
    · rw [← heq]
      exact occurs_line (h.writable d hd)

end Texts

/-- **Written declarations are read back.** A text of declarations on lines of their own, in any mixture and with or
without a line feed at its end, has exactly its `@use` declarations as imports, its `@forward` declarations as reexports
and its bindings as variables, in order and with their lines. -/
theorem scan_written (ds : List Declaration) (hds : ∀ d ∈ ds, d.IsWritable) (content : Text)
    (hcontent : content = separated ds ∨ content = terminated ds) (file : Path) :
    Import.scan content = (ds.zipIdx.filterMap fun x => x.1.import? x.2) ∧
    Reexport.scan content = (ds.zipIdx.filterMap fun x => x.1.reexport? x.2) ∧
    Variable.scan content file = ds.zipIdx.filterMap fun x => x.1.bound? file x.2 := by
  have hfills : Fills ds content := by
    rcases hcontent with rfl | rfl
    · exact fills_separated hds
    · exact fills_terminated hds
  refine ⟨?_, ?_, ?_⟩
  · rw [Import.scan, hfills.codeLines_eq]
    exact hfills.flatMap_lines (fun d n => d.import? n) (fun _ => rfl) fun d hd n => map_useRule_hits hd n
  · rw [Reexport.scan, hfills.codeLines_eq]
    exact hfills.flatMap_lines (fun d n => d.reexport? n) (fun _ => rfl) fun d hd n => map_forwardRule_hits hd n
  · rw [Variable.scan, hfills.outsideComments_eq]
    exact hfills.flatMap_lines (fun d n => d.bound? file n) (fun _ => rfl) fun d hd n => map_binding_hits hd file n

/-- Paths with the other keyword in them and with blanks, a prefix that ends in hyphens, names beyond ASCII, a value with
quotes and the end of a comment. -/
def sampleList : List Declaration :=
  [.use "@forward ".toList none, .forward "@use @use a/b".toList (some "x--".toList),
    .bind "gäp".toList "'a: b' */ 2".toList, .use "sass:math".toList (some "-m".toList),
    .forward "./_c.scss".toList none, .bind "v".toList ":".toList]

theorem scan_written_sampleList :
    (∀ d ∈ sampleList, d.IsWritable) ∧
    Import.scan (terminated sampleList) =
      [⟨"@forward ".toList, "@forward ".toList, 0⟩, ⟨"sass:math".toList, "-m".toList, 3⟩] ∧
    Reexport.scan (terminated sampleList) =
      [⟨"@use @use a/b".toList, some "x---".toList, 1⟩, ⟨"./_c.scss".toList, none, 4⟩] ∧
    Variable.scan (terminated sampleList) ⟨.root, []⟩ =
      [⟨"$gäp".toList, ⟨.root, []⟩, 2, 0, some "'a: b' */ 2".toList⟩,
        ⟨"$v".toList, ⟨.root, []⟩, 5, 0, some ":".toList⟩] := by
  have hds : ∀ d ∈ sampleList, d.IsWritable := by decide +kernel
  obtain ⟨himports, hreexports, hvariables⟩ := scan_written sampleList hds _ (Or.inr rfl) ⟨.root, []⟩
  refine ⟨hds, ?_, ?_, ?_⟩
  · rw [himports]
    decide +kernel
  · rw [hreexports]
    decide +kernel
  · rw [hvariables]
    decide +kernel

end Declaration

end SassModules
