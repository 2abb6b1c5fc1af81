import SassModules.Proofs.Lookup

/-!
# Signatures read back

A mixin that is written as `@mixin name(`, its signature, and `) {}` is found again with the same parameters
(`Mixin.find?_written`), for every list of parameters with different names whose defaults are written values
(`Parameter.IsDefault`): a default may run over several lines and hold nested lists, maps and addresses.

The text passes four readers, and there is one lemma for each that says how it goes through a stretch of text with more
text behind it. Comments are cut off line by line, which changes nothing where none begins (`textFrom_append`); the
list is captured up to its closing parenthesis (`capture_append`); it is cut at the commas outside brackets
(`pieces_append`); and each piece is read as a name and a default (`readPiece_eq`).
-/

namespace SassModules

/-! ## White space at the ends -/

namespace Text

variable {t : Text}

theorem trimStart_eq_self (h : ∀ c ∈ t.head?, isBlank c = false) : trimStart t = t := by
  cases t with
  | nil => rfl
  | cons c t => rw [trimStart, List.dropWhile_cons_of_neg (by simp [h c rfl])]

/-- Nothing is trimmed exactly where neither end is white space. -/
theorem trim_eq_self_iff : trim t = t ↔ (∀ c ∈ t.head?, isBlank c = false) ∧ ∀ c ∈ t.getLast?, isBlank c = false := by
  have hend : trimEnd t = t ↔ ∀ c ∈ t.getLast?, isBlank c = false := by
    rw [← List.head?_reverse, trimEnd, dropEndWhile, List.reverse_eq_iff]
    constructor
    · intro h c hc
      have hnot := List.head?_dropWhile_not isBlank t.reverse
      rw [h, Option.mem_def.1 hc] at hnot
      simpa using hnot
    · exact trimStart_eq_self
  constructor
  · intro h
    have hlen : (trimStart t).length = t.length := by
      have hle : (trimEnd (trimStart t)).length ≤ (trimStart t).length := by
        rw [trimEnd, dropEndWhile, List.length_reverse, ← @List.length_reverse _ (trimStart t)]
        exact (List.dropWhile_sublist _).length_le
      have hge : (trimStart t).length ≤ t.length := (List.dropWhile_sublist _).length_le
      have heq : (trimEnd (trimStart t)).length = t.length := congrArg List.length h
      omega
    have hstart : trimStart t = t := (List.dropWhile_sublist _).eq_of_length hlen
    refine ⟨fun c hc => ?_, hend.1 ((congrArg trimEnd hstart).symm.trans h)⟩
    have hnot := List.head?_dropWhile_not isBlank t
    rw [show t.dropWhile isBlank = t from hstart, Option.mem_def.1 hc] at hnot
    simpa using hnot
  · rintro ⟨hhead, hlast⟩
    rw [trim, trimStart_eq_self hhead, hend.2 hlast]

theorem trim_cons_of_isBlank {c : Char} (hc : isBlank c = true) : trim (c :: t) = trim t := by
  rw [trim, trimStart, List.dropWhile_cons_of_pos hc]
  rfl

/-- No name character is white space. -/
theorem isBlank_of_isNameChar {c : Char} (h : isNameChar c = true) : isBlank c = false := by
  cases hblank : isBlank c with
  | false => rfl
  | true =>
    rw [isNameChar_of_isBlank hblank] at h
    cases h

/-! ## Lines -/

theorem lines_cons (c : Char) (t : Text) :
    lines (c :: t) = if c = '\n' then [] :: lines t else (lines t).modifyHead (c :: ·) := by
  rw [lines, List.splitOn, List.splitOnP_cons_eq_if_modifyHead]
  simp [lines, List.splitOn]

/-- A text has a first line. -/
theorem exists_lines (t : Text) : ∃ l ls, lines t = l :: ls :=
  List.exists_cons_of_ne_nil (List.splitOnP_ne_nil _ _)

/-- The first line is the beginning of the text. -/
theorem prefix_of_lines {l : Text} {ls : List Text} (h : lines t = l :: ls) : l <+: t := by
  have hjoin : ['\n'].intercalate (l :: ls) = t := h ▸ List.intercalate_splitOn '\n'
  rw [← hjoin]
  cases ls with
  | nil => rw [List.intercalate_singleton]
  | cons m ms =>
    rw [List.intercalate_cons_cons, List.append_assoc]
    exact List.prefix_append _ _

/-- A text without a line feed stands in front of the first line. -/
theorem lines_append {a : Text} (ha : '\n' ∉ a) (t : Text) : lines (a ++ t) = (lines t).modifyHead (a ++ ·) := by
  induction a with
  | nil =>
    obtain ⟨l, ls, hl⟩ := exists_lines t
    simp [hl]
  | cons c a ih =>
    obtain ⟨hc, ha⟩ := not_or.1 (mt List.mem_cons.2 ha)
    rw [List.cons_append, lines_cons, if_neg (Ne.symm hc), ih ha, List.modifyHead_modifyHead]
    rfl

end Text

namespace Parameter

/-! ## Defaults -/

/-- The parentheses that a text leaves open. -/
def openParens (t : Text) : Int := t.count '(' - t.count ')'

/-- The brackets of either kind that a text leaves open. -/
def openBrackets (t : Text) : Int := t.count '(' + t.count '{' - (t.count ')' + t.count '}')

/-- Would two slashes begin a comment behind this character, or at the start of a line? -/
def mayPrecedeComment (before : Option Char) : Bool := before.all fun c => Text.isBlank c || c == ',' || c == '('

/-- A value that can stand behind the colon of a parameter. No beginning of it closes more parentheses than it opens, a
comma stands inside brackets only, and no comment begins in it. -/
structure IsDefault (d : Text) : Prop where
  ne_nil : d ≠ []
  trimmed : d.trim = d
  parens : ∀ front ∈ d.inits, 0 ≤ openParens front
  parens_closed : openParens d = 0
  brackets_closed : openBrackets d = 0
  commas : ∀ front ∈ d.inits, front ++ [','] <+: d → openBrackets front ≠ 0
  comments : ∀ front ∈ d.inits, front ++ ['/', '/'] <+: d → mayPrecedeComment front.getLast? = false

/-- A parameter that can be written in a list: its name is one, and so is its default, if it has any. -/
structure IsWritable (p : Parameter) : Prop where
  name : Reference.isName p.name = true
  default : ∀ d ∈ p.default, IsDefault d

section Defaults

variable {t : Text}

instance (d : Text) : Decidable (IsDefault d) :=
  decidable_of_iff (d ≠ [] ∧ d.trim = d ∧ (∀ front ∈ d.inits, 0 ≤ openParens front) ∧ openParens d = 0 ∧
      openBrackets d = 0 ∧ (∀ front ∈ d.inits, front ++ [','] <+: d → openBrackets front ≠ 0) ∧
      ∀ front ∈ d.inits, front ++ ['/', '/'] <+: d → mayPrecedeComment front.getLast? = false)
    ⟨fun ⟨h₁, h₂, h₃, h₄, h₅, h₆, h₇⟩ => ⟨h₁, h₂, h₃, h₄, h₅, h₆, h₇⟩,
      fun ⟨h₁, h₂, h₃, h₄, h₅, h₆, h₇⟩ => ⟨h₁, h₂, h₃, h₄, h₅, h₆, h₇⟩⟩

instance (p : Parameter) : Decidable p.IsWritable :=
  decidable_of_iff (Reference.isName p.name = true ∧ ∀ d ∈ p.default, IsDefault d)
    ⟨fun ⟨h₁, h₂⟩ => ⟨h₁, h₂⟩, fun ⟨h₁, h₂⟩ => ⟨h₁, h₂⟩⟩

theorem openParens_cons (c : Char) (t : Text) :
    openParens (c :: t) = (if c = '(' then 1 else if c = ')' then -1 else 0) + openParens t := by
  by_cases h : c = '('
  · subst h
    simp [openParens]
    omega
  · by_cases h' : c = ')'
    · subst h'
      simp [openParens]
      omega
    · simp [openParens, h, h']

theorem openBrackets_cons (c : Char) (t : Text) :
    openBrackets (c :: t) =
      (if c = '(' ∨ c = '{' then 1 else if c = ')' ∨ c = '}' then -1 else 0) + openBrackets t := by
  by_cases h : c = '(' ∨ c = '{'
  · rcases h with rfl | rfl <;> (simp [openBrackets]; omega)
  · by_cases h' : c = ')' ∨ c = '}'
    · rcases h' with rfl | rfl <;> (simp [openBrackets]; omega)
    · rw [if_neg h, if_neg h']
      rw [not_or] at h h'
      simp [openBrackets, h, h']

/-- Characters that stand for themselves in a list: no bracket, no comma, no slash. -/
def isOrdinary (c : Char) : Bool := c ∉ ['(', ')', '{', '}', ',', '/']

theorem openParens_of_ordinary (h : ∀ c ∈ t, isOrdinary c = true) : openParens t = 0 := by
  induction t with
  | nil => rfl
  | cons c t ih =>
    have hc := h c List.mem_cons_self
    simp only [isOrdinary, List.mem_cons, List.not_mem_nil, decide_eq_true_eq, not_or] at hc
    rw [openParens_cons, if_neg hc.1, if_neg hc.2.1, ih fun c' hc' => h c' (List.mem_cons_of_mem c hc')]
    rfl

theorem openBrackets_of_ordinary (h : ∀ c ∈ t, isOrdinary c = true) : openBrackets t = 0 := by
  induction t with
  | nil => rfl
  | cons c t ih =>
    have hc := h c List.mem_cons_self
    simp only [isOrdinary, List.mem_cons, List.not_mem_nil, decide_eq_true_eq, not_or] at hc
    rw [openBrackets_cons, if_neg (by simp [hc]), if_neg (by simp [hc]),
      ih fun c' hc' => h c' (List.mem_cons_of_mem c hc')]
    rfl

theorem isOrdinary_of_isNameChar {c : Char} (h : Text.isNameChar c = true) : isOrdinary c = true := by
  have hspecial : ['(', ')', '{', '}', ',', '/'].all (fun c => !Text.isNameChar c) = true := by decide
  simp only [isOrdinary, decide_eq_true_eq]
  intro hc
  have hnot := List.all_eq_true.1 hspecial c hc
  rw [h] at hnot
  cases hnot

end Defaults

/-! ## Through the four readers -/

section Readers

variable {a s : Text}

theorem nil_append_eq_id : (fun t : Text => [] ++ t) = id := rfl

/-- The captured text goes through a stretch that leaves the list open all the way. -/
theorem capture_append {depth : Int} (h : ∀ front, front <+: a → 1 ≤ depth + openParens front) :
    capture depth (a ++ s) = (capture (depth + openParens a) s).map (a ++ ·) := by
  induction a generalizing depth with
  | nil => simp [openParens]
  | cons c a ih =>
    have hdepth : 1 ≤ depth := by simpa [openParens] using h [] List.nil_prefix
    have hstep : ∀ d' : Int, d' + openParens a = depth + openParens (c :: a) →
        (capture d' (a ++ s)).map (c :: ·) = (capture (depth + openParens (c :: a)) s).map (c :: a ++ ·) := by
      intro d' hd'
      rw [ih, hd', Option.map_map]
      · rfl
      · intro front hfront
        have hle := h (c :: front) (List.cons_prefix_cons.2 ⟨rfl, hfront⟩)
        rw [openParens_cons] at hle hd'
        omega
    rw [List.cons_append, capture]
    by_cases hopen : c = '('
    · rw [if_pos hopen, if_neg (by omega)]
      exact hstep _ (by rw [openParens_cons, if_pos hopen]; omega)
    · rw [if_neg hopen]
      by_cases hclose : c = ')'
      · have hle := h [c] (by simp)
        rw [openParens_cons, if_neg hopen, if_pos hclose] at hle
        have hnil : openParens [] = 0 := rfl
        rw [if_pos hclose, if_neg (by omega)]
        exact hstep _ (by rw [openParens_cons, if_neg hopen, if_pos hclose]; omega)
      · rw [if_neg hclose]
        exact hstep _ (by rw [openParens_cons, if_neg hopen, if_neg hclose]; omega)

/-- A stretch whose commas all stand inside brackets is no more than a part of one piece. -/
theorem pieces_append {depth : Int} (h : ∀ front, front ++ [','] <+: a → depth + openBrackets front ≠ 0) :
    pieces depth (a ++ s) = (pieces (depth + openBrackets a) s).modifyHead (a ++ ·) := by
  induction a generalizing depth with
  | nil =>
    rw [nil_append_eq_id, List.modifyHead_id]
    simp [openBrackets]
  | cons c a ih =>
    have hstep : ∀ d' : Int, d' + openBrackets a = depth + openBrackets (c :: a) →
        (pieces d' (a ++ s)).modifyHead (c :: ·) =
          (pieces (depth + openBrackets (c :: a)) s).modifyHead (c :: a ++ ·) := by
      intro d' hd'
      rw [ih, hd', List.modifyHead_modifyHead]
      · rfl
      · intro front hfront
        have hne := h (c :: front) (List.cons_prefix_cons.2 ⟨rfl, hfront⟩)
        rw [openBrackets_cons] at hne hd'
        omega
    rw [List.cons_append, pieces]
    by_cases hopen : c = '(' ∨ c = '{'
    · rw [if_pos hopen]
      exact hstep _ (by rw [openBrackets_cons, if_pos hopen]; omega)
    · rw [if_neg hopen]
      by_cases hclose : c = ')' ∨ c = '}'
      · rw [if_pos hclose]
        exact hstep _ (by rw [openBrackets_cons, if_neg hopen, if_pos hclose]; omega)
      · have hcomma : ¬(c = ',' ∧ depth = 0) := by
          rintro ⟨rfl, rfl⟩
          exact h [] (by simp) rfl
        rw [if_neg hclose, if_neg hcomma]
        exact hstep _ (by rw [openBrackets_cons, if_neg hopen, if_neg hclose]; omega)

/-- A character is kept unless two slashes begin a comment there. -/
theorem dropCommentAfter_cons {before : Option Char} {c : Char}
    (h : ['/', '/'] <+: c :: s → mayPrecedeComment before = false) :
    dropCommentAfter before (c :: s) = c :: dropCommentAfter (some c) s := by
  rw [dropCommentAfter, if_neg]
  rw [Bool.and_eq_true, List.isPrefixOf_iff_prefix]
  rintro ⟨hslashes, hbefore⟩
  exact Bool.false_ne_true ((h hslashes).symm.trans hbefore)

/-- Where a text is kept as it is, no comment begins at its head. -/
theorem of_dropCommentAfter_cons {before : Option Char} {c : Char} (h : dropCommentAfter before (c :: s) = c :: s) :
    (['/', '/'] <+: c :: s → mayPrecedeComment before = false) ∧ dropCommentAfter (some c) s = s := by
  rw [dropCommentAfter] at h
  split at h
  · cases h
  · rename_i hkeep
    rw [Bool.and_eq_true, List.isPrefixOf_iff_prefix, not_and, Bool.not_eq_true] at hkeep
    exact ⟨hkeep, (List.cons.inj h).2⟩

/-- No comment is cut off in a stretch where none begins, unless two slashes meet at its end. -/
theorem dropCommentAfter_append_of {before : Option Char}
    (h : ∀ front, front ++ ['/', '/'] <+: a → mayPrecedeComment (front.getLast?.or before) = false)
    (hs : a.getLast? = some '/' → s.head? ≠ some '/') :
    dropCommentAfter before (a ++ s) = a ++ dropCommentAfter (a.getLast?.or before) s := by
  induction a generalizing before with
  | nil => rfl
  | cons c a ih =>
    rw [List.cons_append, dropCommentAfter_cons, ih]
    · cases a <;> rfl
    · intro front hfront
      have hnot := h (c :: front) (List.cons_prefix_cons.2 ⟨rfl, hfront⟩)
      cases front with
      | nil => exact hnot
      | cons c' front => exact hnot
    · cases a with
      | nil => simp
      | cons c' a => exact hs
    · intro hslashes
      obtain ⟨rfl, hslash⟩ := List.cons_prefix_cons.1 hslashes
      cases a with
      | nil =>
        obtain ⟨rest, rfl⟩ : ['/'] <+: s := hslash
        exact absurd rfl (hs rfl)
      | cons c' a =>
        obtain ⟨rfl, -⟩ := List.cons_prefix_cons.1 hslash
        exact h [] (by simp)

/-- A line that begins behind a line feed begins like the first line. -/
theorem dropCommentAfter_newline (s : Text) : dropCommentAfter (some '\n') s = dropComment s := by
  cases s <;> rfl

/-- Cutting comments off line by line changes nothing in a text where no comment begins. -/
theorem join_dropComment_lines {t : Text} {before : Option Char} {l : Text} {ls : List Text}
    (ht : dropCommentAfter before t = t) (hl : t.lines = l :: ls) :
    Text.join "\n" (dropCommentAfter before l :: ls.map dropComment) = t := by
  induction t generalizing before l ls with
  | nil =>
    obtain ⟨rfl, rfl⟩ := List.cons.inj (show [[]] = l :: ls from hl)
    rfl
  | cons c t ih =>
    obtain ⟨hkeep, ht⟩ := of_dropCommentAfter_cons ht
    obtain ⟨l', ls', hl'⟩ := Text.exists_lines t
    have hrest := ih ht hl'
    rw [Text.lines_cons, hl'] at hl
    by_cases hc : c = '\n'
    · subst hc
      obtain ⟨rfl, rfl⟩ := List.cons.inj hl
      rw [dropCommentAfter_newline] at hrest
      rw [List.map_cons, Text.join, List.intercalate_cons_cons]
      exact congrArg ('\n' :: ·) hrest
    · rw [if_neg hc] at hl
      obtain ⟨rfl, rfl⟩ := List.cons.inj hl
      -- slashes at the head of the line stand at the head of the text
      have hline : c :: l' <+: c :: t := List.cons_prefix_cons.2 ⟨rfl, Text.prefix_of_lines hl'⟩
      rw [dropCommentAfter_cons fun h => hkeep (h.trans hline)]
      cases ls' with
      | nil => simpa [Text.join] using hrest
      | cons m ms =>
        rw [List.map_cons, Text.join, List.intercalate_cons_cons] at hrest ⊢
        simpa using hrest

/-- The text from a column of the first line on, where no comment begins in it. -/
theorem textFrom_append {t : Text} (ha : '\n' ∉ a) (ht : dropComment t = t) :
    textFrom (Text.lines (a ++ t)) 0 a.length = t := by
  obtain ⟨l, ls, hl⟩ := Text.exists_lines t
  rw [Text.lines_append ha, hl]
  show Text.join "\n" (((a ++ l).drop a.length :: ls).map dropComment) = t
  rw [List.drop_left, List.map_cons]
  exact join_dropComment_lines ht hl

end Readers

/-! ## Parameters through the readers -/

/-- A stretch of a list that each reader passes as a whole, whatever stands behind it. -/
structure IsWhole (x : Text) : Prop where
  capture_eq : ∀ (depth : Int) (s : Text), 1 ≤ depth → capture depth (x ++ s) = (capture depth s).map (x ++ ·)
  pieces_eq : ∀ s : Text, pieces 0 (x ++ s) = (pieces 0 s).modifyHead (x ++ ·)
  uncut : ∀ (before : Option Char) (s : Text), s.head? ≠ some '/' →
    ∃ before', dropCommentAfter before (x ++ s) = x ++ dropCommentAfter before' s

section Whole

variable {a d x : Text} {xs : List Text}

theorem isWhole_nil : IsWhole [] where
  capture_eq := fun depth s _ => by
    rw [nil_append_eq_id, Option.map_id]
    rfl
  pieces_eq := fun s => by
    rw [nil_append_eq_id, List.modifyHead_id]
    rfl
  uncut := fun before _ _ => ⟨before, rfl⟩

theorem IsDefault.isWhole (hd : IsDefault d) : IsWhole d where
  capture_eq := by
    intro depth s hdepth
    rw [capture_append, hd.parens_closed, Int.add_zero]
    intro front hfront
    have hle := hd.parens front ((List.mem_inits _ _).2 hfront)
    omega
  pieces_eq := by
    intro s
    rw [pieces_append, hd.brackets_closed, Int.add_zero]
    intro front hfront
    rw [Int.zero_add]
    exact hd.commas front ((List.mem_inits _ _).2 ((List.prefix_append _ _).trans hfront)) hfront
  uncut := by
    intro before s hs
    refine ⟨_, dropCommentAfter_append_of (fun front hfront => ?_) fun _ => hs⟩
    have hnot := hd.comments front ((List.mem_inits _ _).2 ((List.prefix_append _ _).trans hfront)) hfront
    cases hlast : front.getLast? with
    | none => rw [hlast] at hnot; cases hnot
    | some c => rwa [hlast] at hnot

/-- Ordinary characters may stand in front. -/
theorem IsWhole.append_left (ha : ∀ c ∈ a, isOrdinary c = true) (hx : IsWhole x) : IsWhole (a ++ x) where
  capture_eq := by
    intro depth s hdepth
    rw [List.append_assoc, capture_append, openParens_of_ordinary ha, Int.add_zero, hx.capture_eq depth s hdepth,
      Option.map_map]
    · simp [Function.comp_def]
    · intro front hfront
      rw [openParens_of_ordinary fun c hc => ha c (hfront.subset hc)]
      omega
  pieces_eq := by
    intro s
    rw [List.append_assoc, pieces_append, openBrackets_of_ordinary ha, Int.add_zero, hx.pieces_eq,
      List.modifyHead_modifyHead]
    · simp [Function.comp_def]
    · intro front hfront
      exact absurd (ha ',' (hfront.subset (by simp))) (by decide)
  uncut := by
    intro before s hs
    have hslash : '/' ∉ a := fun hmem => absurd (ha '/' hmem) (by decide)
    obtain ⟨before', hrest⟩ := hx.uncut (a.getLast?.or before) s hs
    refine ⟨before', ?_⟩
    rw [List.append_assoc, dropCommentAfter_append_of, hrest, List.append_assoc]
    · exact fun front hfront => absurd (hfront.subset (by simp)) hslash
    · exact fun hlast => absurd (List.mem_of_getLast? hlast) hslash

/-- What is written in front of a separator and more. -/
theorem join_cons_cons (x y : Text) (ys : List Text) :
    Text.join ", " (x :: y :: ys) = x ++ (", ".toList ++ Text.join ", " (y :: ys)) := by
  rw [Text.join, List.intercalate_cons_cons, List.append_assoc]
  rfl

theorem capture_join (hxs : ∀ x ∈ xs, IsWhole x) {depth : Int} (hdepth : 1 ≤ depth) (s : Text) :
    capture depth (Text.join ", " xs ++ s) = (capture depth s).map (Text.join ", " xs ++ ·) := by
  induction xs with
  | nil => exact isWhole_nil.capture_eq depth s hdepth
  | cons x xs ih =>
    obtain ⟨hx, hxs⟩ := List.forall_mem_cons.1 hxs
    cases xs with
    | nil => simpa [Text.join] using hx.capture_eq depth s hdepth
    | cons y ys =>
      have hsep : ∀ t : Text, capture depth (", ".toList ++ t) = (capture depth t).map (", ".toList ++ ·) := by
        intro t
        show capture depth (',' :: ' ' :: t) = _
        simp [capture, Option.map_map, Function.comp_def]
      rw [join_cons_cons, List.append_assoc, hx.capture_eq _ _ hdepth, List.append_assoc, hsep, ih hxs]
      simp [Option.map_map, Function.comp_def]

theorem uncut_join (hxs : ∀ x ∈ xs, IsWhole x) {s : Text} (hs : s.head? ≠ some '/') (before : Option Char) :
    ∃ before', dropCommentAfter before (Text.join ", " xs ++ s) =
      Text.join ", " xs ++ dropCommentAfter before' s := by
  induction xs generalizing before with
  | nil => exact ⟨before, rfl⟩
  | cons x xs ih =>
    obtain ⟨hx, hxs⟩ := List.forall_mem_cons.1 hxs
    cases xs with
    | nil => simpa [Text.join] using hx.uncut before s hs
    | cons y ys =>
      have hsep : ∀ (b : Option Char) (u : Text),
          dropCommentAfter b (", ".toList ++ u) = ", ".toList ++ dropCommentAfter (some ' ') u := by
        intro b u
        show dropCommentAfter b (',' :: ' ' :: u) = ',' :: ' ' :: dropCommentAfter (some ' ') u
        rw [dropCommentAfter_cons, dropCommentAfter_cons] <;> simp
      obtain ⟨b, hb⟩ := hx.uncut before (", ".toList ++ (Text.join ", " (y :: ys) ++ s)) (by simp)
      obtain ⟨b', hb'⟩ := ih hxs (some ' ')
      refine ⟨b', ?_⟩
      rw [join_cons_cons, List.append_assoc, List.append_assoc, hb, hsep, hb']
      simp

/-- A joined list is cut at its separators; a blank stays in front of every piece but the first. -/
theorem pieces_join (hx : IsWhole x) (hxs : ∀ x ∈ xs, IsWhole x) :
    pieces 0 (Text.join ", " (x :: xs)) = x :: xs.map (' ' :: ·) := by
  induction xs generalizing x with
  | nil =>
    have h := hx.pieces_eq []
    simpa [Text.join, pieces] using h
  | cons y ys ih =>
    obtain ⟨hy, hys⟩ := List.forall_mem_cons.1 hxs
    have hsep : ∀ t : Text, pieces 0 (", ".toList ++ t) = [] :: (pieces 0 t).modifyHead (' ' :: ·) := by
      intro t
      show pieces 0 (',' :: ' ' :: t) = _
      simp [pieces]
    rw [join_cons_cons, hx.pieces_eq, hsep, ih hy hys]
    simp

end Whole

/-! ## Reading one piece -/

section Pieces

variable {p : Parameter} {piece : Text}

theorem IsWritable.signature_cases (hp : p.IsWritable) : (p.default = none ∧ p.signature = '$' :: p.name) ∨
    ∃ d, p.default = some d ∧ IsDefault d ∧ p.signature = '$' :: p.name ++ ':' :: ' ' :: d := by
  unfold signature
  cases hd : p.default with
  | none => exact Or.inl ⟨rfl, rfl⟩
  | some d =>
    have hdefault := hp.default d hd
    obtain ⟨c, d, rfl⟩ := List.exists_cons_of_ne_nil hdefault.ne_nil
    exact Or.inr ⟨_, rfl, hdefault, by simp⟩

theorem IsWritable.isWhole (hp : p.IsWritable) : IsWhole p.signature := by
  have hname : ∀ c ∈ '$' :: p.name, isOrdinary c = true := by
    intro c hc
    rcases List.mem_cons.1 hc with rfl | hc
    · decide
    · exact isOrdinary_of_isNameChar ((Pattern.isName_iff.1 hp.name).2 c hc)
  rcases hp.signature_cases with ⟨-, heq⟩ | ⟨d, -, hd, heq⟩
  · have h := isWhole_nil.append_left hname
    rwa [heq, ← List.append_nil ('$' :: p.name)]
  · have hcolon : ∀ c ∈ [':', ' '], isOrdinary c = true := by
      intro c hc
      simp only [List.mem_cons, List.not_mem_nil, or_false] at hc
      rcases hc with rfl | rfl <;> decide
    rw [heq]
    exact (hd.isWhole.append_left hcolon).append_left hname

theorem isWhole_of_mem_signatures {ps : List Parameter} (hps : ∀ q ∈ ps, q.IsWritable) :
    ∀ x ∈ ps.map signature, IsWhole x := by
  intro x hx
  obtain ⟨q, hq, rfl⟩ := List.mem_map.1 hx
  exact (hps q hq).isWhole

/-- A parameter is written without white space at its ends. -/
theorem IsWritable.trim_signature (hp : p.IsWritable) : p.signature.trim = p.signature := by
  obtain ⟨hne, hchars⟩ := Pattern.isName_iff.1 hp.name
  have hsigil : ∀ (t : Text), ∀ c ∈ ('$' :: t).head?, Text.isBlank c = false := by
    rintro t c ⟨⟩
    decide
  rcases hp.signature_cases with ⟨-, heq⟩ | ⟨d, -, hd, heq⟩
  · refine Text.trim_eq_self_iff.2 ⟨heq ▸ hsigil _, fun c hc => ?_⟩
    rw [heq, List.getLast?_cons_of_ne_nil hne] at hc
    exact Text.isBlank_of_isNameChar (hchars c (List.mem_of_getLast? hc))
  · refine Text.trim_eq_self_iff.2 ⟨heq ▸ hsigil _, fun c hc => ?_⟩
    have hsplit : '$' :: p.name ++ ':' :: ' ' :: d = ('$' :: p.name ++ [':', ' ']) ++ d := by simp
    rw [heq, hsplit, List.getLast?_append_of_ne_nil _ hd.ne_nil] at hc
    exact (Text.trim_eq_self_iff.1 hd.trimmed).2 c hc

theorem IsWritable.signature_ne_nil (hp : p.IsWritable) : p.signature ≠ [] := by
  rcases hp.signature_cases with ⟨-, heq⟩ | ⟨d, -, -, heq⟩ <;> simp [heq]

theorem IsWritable.trim_blank_signature (hp : p.IsWritable) : Text.trim (' ' :: p.signature) = p.signature :=
  (Text.trim_cons_of_isBlank (by decide)).trans hp.trim_signature

/-- The piece that a parameter is written as is read as its name and its default. -/
theorem IsWritable.readPiece_eq (hp : p.IsWritable) (hpiece : piece.trim = p.signature) :
    readPiece piece = some (p.name, p.default) := by
  have hword : ∀ rest : Text, (∀ c ∈ rest.head?, Text.isNameChar c = false) →
      Pattern.word (p.name ++ rest) = some (p.name, rest) :=
    fun rest hrest => Pattern.word_eq_some_iff.2 ⟨hp.name, rfl, hrest⟩
  have hsigil : ∀ t : Text, Pattern.literal "$" ('$' :: t) = some t := fun t => Pattern.literal_eq_some_iff.2 rfl
  unfold readPiece
  rw [hpiece]
  rcases hp.signature_cases with ⟨hnone, heq⟩ | ⟨d, hsome, hd, heq⟩
  · have h := hword [] nofun
    rw [List.append_nil] at h
    rw [heq, hsigil, hnone]
    simp only [Option.bind_eq_bind, Option.bind_some, h]
    rfl
  · have h := hword (':' :: ' ' :: d) (by rintro c ⟨⟩; decide)
    have hblanks : Pattern.blanks ((Pattern.literal "..." (':' :: ' ' :: d)).getD (':' :: ' ' :: d)) =
        ':' :: ' ' :: d := rfl
    have htrim : Text.trim (' ' :: d) = d := (Text.trim_cons_of_isBlank (by decide)).trans hd.trimmed
    rw [heq, List.cons_append, hsigil, hsome]
    simp only [Option.bind_eq_bind, Option.bind_some, h, hblanks, htrim, if_neg hd.ne_nil]
    rfl

/-- The pieces of a written list: a blank stands in front of each but the first. -/
theorem topLevel_signatures {ps : List Parameter} (hp : p.IsWritable) (hps : ∀ q ∈ ps, q.IsWritable) :
    topLevel (signatures (p :: ps)) = p.signature :: ps.map fun q => ' ' :: q.signature := by
  have hwhole := isWhole_of_mem_signatures hps
  have hpieces : pieces 0 (signatures (p :: ps)) = p.signature :: ps.map fun q => ' ' :: q.signature := by
    rw [signatures, List.map_cons, pieces_join hp.isWhole hwhole, List.map_map]
    rfl
  -- no piece is blank, so the last one counts
  have hfull : ∀ x ∈ p.signature :: ps.map fun q => ' ' :: q.signature, x.trim ≠ [] := by
    intro x hx
    rcases List.mem_cons.1 hx with rfl | hx
    · rw [hp.trim_signature]
      exact hp.signature_ne_nil
    · obtain ⟨q, hq, rfl⟩ := List.mem_map.1 hx
      rw [(hps q hq).trim_blank_signature]
      exact (hps q hq).signature_ne_nil
  rw [topLevel, hpieces, List.getLast?_eq_some_getLast (List.cons_ne_nil _ _), Option.getD_some,
    if_neg (hfull _ (List.getLast_mem _))]

/-- The pieces of a written list are read as the names and defaults of its parameters. -/
theorem filterMap_readPiece {ps : List Parameter} (hps : ∀ p ∈ ps, p.IsWritable) :
    (topLevel (signatures ps)).filterMap readPiece = ps.map fun p => (p.name, p.default) := by
  cases ps with
  | nil => rfl
  | cons p ps =>
    obtain ⟨hp, hps⟩ := List.forall_mem_cons.1 hps
    have hread : ∀ q ∈ ps, readPiece (' ' :: q.signature) = some (q.name, q.default) :=
      fun q hq => (hps q hq).readPiece_eq (hps q hq).trim_blank_signature
    rw [topLevel_signatures hp hps, List.filterMap_cons_some (hp.readPiece_eq hp.trim_signature), List.map_cons,
      List.filterMap_map, ← List.filterMap_eq_map]
    congr 1
    exact List.filterMap_congr hread

/-- Nothing is left out of a list of different names. -/
theorem distinct_eq_self {seen : List Text} : ∀ {ps : List (Text × Option Text)}, (ps.map (·.1)).Nodup →
    (∀ p ∈ ps, p.1 ∉ seen) → distinct seen ps = ps
  | [], _, _ => rfl
  | p :: ps, hnodup, hseen => by
    obtain ⟨hp, hnodup⟩ := List.nodup_cons.1 hnodup
    obtain ⟨hpseen, hseen⟩ := List.forall_mem_cons.1 hseen
    rw [distinct, if_neg hpseen, distinct_eq_self hnodup]
    intro q hq hmem
    rcases List.mem_cons.1 hmem with heq | hmem
    · exact hp (List.mem_map.2 ⟨q, hq, heq⟩)
    · exact hseen q hq hmem

end Pieces

end Parameter

/-! ## The mixin that is found -/

/-- A mixin with a name and parameters as it is written, with nothing in its body. -/
def Mixin.written (name : Text) (ps : List Parameter) : Text :=
  "@mixin ".toList ++ name ++ '(' :: Parameter.signatures ps ++ ") \x7b\x7d".toList

namespace Parameter

variable {ps : List Parameter}

/-- The written list is captured whole. -/
theorem listText?_written {a : Text} (ha : '\n' ∉ a) (hps : ∀ p ∈ ps, p.IsWritable) :
    listText? (Text.lines (a ++ '(' :: signatures ps ++ ") \x7b\x7d".toList)) 0 a.length = some (signatures ps) := by
  have hwhole := isWhole_of_mem_signatures hps
  have hkeep : dropComment ('(' :: signatures ps ++ ") \x7b\x7d".toList) =
      '(' :: signatures ps ++ ") \x7b\x7d".toList := by
    obtain ⟨before, h⟩ := uncut_join hwhole (s := ") \x7b\x7d".toList) (by decide) (some '(')
    rw [dropComment, List.cons_append, dropCommentAfter_cons (by simp), signatures, h]
    rfl
  rw [listText?, List.append_assoc, textFrom_append ha hkeep, List.cons_append, signatures]
  show capture 1 (Text.join ", " (ps.map signature) ++ ") \x7b\x7d".toList) = _
  rw [capture_join hwhole (by decide)]
  show (some []).map _ = _
  rw [Option.map_some, List.append_nil]

/-- The parameters of a written list are read back with their names and defaults. -/
theorem readList?_written {a : Text} (ha : '\n' ∉ a) (hps : ∀ p ∈ ps, p.IsWritable)
    (hnames : (ps.map name).Nodup) (column : Nat) :
    ∃ qs, readList? (Text.lines (a ++ '(' :: signatures ps ++ ") \x7b\x7d".toList)) 0 a.length column = some qs ∧
      qs.map (fun q => (q.name, q.default)) = ps.map fun p => (p.name, p.default) := by
  rw [readList?, listText?_written ha hps, Option.map_some, filterMap_readPiece hps, distinct_eq_self]
  · refine ⟨_, rfl, ?_⟩
    rw [List.map_map]
    exact List.map_id _
  · rwa [List.map_map]
  · exact fun _ _ => List.not_mem_nil

/-- A signature tells names and defaults only. -/
theorem signatures_congr {qs : List Parameter}
    (h : qs.map (fun q => (q.name, q.default)) = ps.map fun p => (p.name, p.default)) :
    signatures qs = signatures ps := by
  let shown (f : Text × Option Text) : Text := signature ⟨f.1, f.2, 0, 0⟩
  have hshown : ∀ rs : List Parameter, rs.map signature = (rs.map fun r => (r.name, r.default)).map shown := by
    intro rs
    rw [List.map_map]
    rfl
  rw [signatures, signatures, hshown, hshown, h]

end Parameter

/-- A match at the start of a text is its first hit. -/
theorem Pattern.hits_cons_of_some {α : Type} {pat : Pattern α} {c : Char} {s rest : Text} {value : α}
    (h : pat (c :: s) = some (value, rest)) :
    ∃ hs, pat.hits (c :: s) = ⟨0, (c :: s).length - rest.length, value⟩ :: hs := by
  rw [hits, hitsFrom, h]
  exact ⟨_, rfl⟩

/-- A name does not begin with white space. -/
theorem Pattern.isBlank_head_append {name : Text} (hname : Reference.isName name = true) (rest : Text) :
    ∀ c ∈ (name ++ rest).head?, Text.isBlank c = false := by
  obtain ⟨hne, hchars⟩ := Pattern.isName_iff.1 hname
  obtain ⟨c', name, rfl⟩ := List.exists_cons_of_ne_nil hne
  intro c hc
  obtain rfl : c' = c := Option.some.inj hc
  exact Text.isBlank_of_isNameChar (hchars c' List.mem_cons_self)

namespace Mixin

variable {name : Text} {ps : List Parameter}

/-- The head of a mixin is read at the start of its line. -/
theorem mixinHead_append (hname : Reference.isName name = true) (rest : Text) :
    Pattern.mixinHead ("@mixin ".toList ++ name ++ '(' :: rest) = some (⟨name, 7, true⟩, rest) := by
  have hkeyword : Pattern.literal "@mixin" ("@mixin ".toList ++ name ++ '(' :: rest) =
      some (' ' :: (name ++ '(' :: rest)) := by
    refine Pattern.literal_eq_some_iff.2 ?_
    simp
  have hblank : Pattern.blanks1 (' ' :: (name ++ '(' :: rest)) = some (name ++ '(' :: rest) := by
    exact Pattern.blanks1_eq_some_iff.2 ⟨[' '], by simp, by simp; decide, rfl, Pattern.isBlank_head_append hname _⟩
  have hword : Pattern.word (name ++ '(' :: rest) = some (name, '(' :: rest) :=
    Pattern.word_eq_some_iff.2 ⟨hname, rfl, by rintro c ⟨⟩; decide⟩
  have hoffset : ("@mixin ".toList ++ name ++ '(' :: rest).length - (name ++ '(' :: rest).length = 7 := by
    rw [List.append_assoc, List.length_append, Nat.add_sub_cancel]
    rfl
  have hparen : Pattern.blanks ('(' :: rest) = '(' :: rest := rfl
  unfold Pattern.mixinHead
  simp only [Option.bind_eq_bind, hkeyword, hblank, hword, hparen, hoffset, Option.bind_some]

theorem not_mem_keyword_append (hname : Reference.isName name = true) : '\n' ∉ "@mixin ".toList ++ name := by
  rw [List.mem_append, not_or]
  refine ⟨by decide, fun hmem => ?_⟩
  have hchar := (Pattern.isName_iff.1 hname).2 '\n' hmem
  revert hchar
  decide

/-- The head of a written mixin is found in its first line. -/
theorem findHead?_written (hname : Reference.isName name = true) :
    findHead? (written name ps) name = some (0, ⟨0, name.length + 8, ⟨name, 7, true⟩⟩) := by
  obtain ⟨l, ls, hl⟩ := Text.exists_lines (Parameter.signatures ps ++ ") \x7b\x7d".toList)
  have hrest : Text.lines ('(' :: Parameter.signatures ps ++ ") \x7b\x7d".toList) = ('(' :: l) :: ls := by
    rw [List.cons_append, Text.lines_cons, if_neg (by decide), hl, List.modifyHead_cons]
  have hlines : (written name ps).lines = ("@mixin ".toList ++ name ++ '(' :: l) :: ls := by
    have hsplit : written name ps =
        ("@mixin ".toList ++ name) ++ ('(' :: Parameter.signatures ps ++ ") \x7b\x7d".toList) := List.append_assoc _ _ _
    rw [hsplit, Text.lines_append (not_mem_keyword_append hname), hrest]
    exact List.modifyHead_cons
  obtain ⟨s, hs⟩ : ∃ s, "@mixin ".toList ++ name ++ '(' :: l = '@' :: s :=
    ⟨"mixin ".toList ++ name ++ '(' :: l, by simp⟩
  have hcode : Source.isCommentLine ('@' :: s) = false := rfl
  have hlength : ('@' :: s).length - l.length = name.length + 8 := by
    rw [← hs]
    simp
    omega
  obtain ⟨others, hothers⟩ := Pattern.hits_cons_of_some (hs ▸ mixinHead_append hname l)
  rw [hlength] at hothers
  have hheads : heads (Source.codeLines (written name ps)) =
      (0, ⟨0, name.length + 8, ⟨name, 7, true⟩⟩) :: (others.map fun h => (0, h)) ++
        heads (((ls.zipIdx 1).filter fun l => !Source.isCommentLine l.1)) := by
    rw [Source.codeLines, hlines, hs, List.zipIdx_cons, List.filter_cons_of_pos (by simp [hcode]), heads,
      List.flatMap_cons]
    show (Pattern.mixinHead.hits ('@' :: s)).map _ ++ _ = _
    rw [hothers]
    rfl
  rw [findHead?, hheads, List.cons_append, List.find?_cons_of_pos (by simp)]

/-- **A written signature is read back.** The mixin that is found in the text of a mixin with the given name and
parameters stands at its start, with the name at column seven; its parameters have the same names and defaults in the
same order, and its signature is the one that was written. -/
theorem find?_written (name : Text) (ps : List Parameter) (file : Path) (hname : Reference.isName name = true)
    (hps : ∀ p ∈ ps, p.IsWritable) (hnames : (ps.map Parameter.name).Nodup) :
    ∃ m, find? (written name ps) name file = some m ∧ m.name = name ∧ m.file = file ∧ m.line = 0 ∧ m.column = 0 ∧
      m.nameColumn = 7 ∧ m.parameters.map (fun q => (q.name, q.default)) = ps.map (fun p => (p.name, p.default)) ∧
      m.signature = Parameter.signatures ps := by
  obtain ⟨qs, hqs, hsame⟩ := Parameter.readList?_written (not_mem_keyword_append hname) hps hnames 0
  have hparen : ("@mixin ".toList ++ name).length = (Hit.mk 0 (name.length + 8) (Head.mk name 7 true)).stop - 1 := by
    simp [Hit.stop]
  have hparameters : headParameters? (written name ps).lines 0 ⟨0, name.length + 8, ⟨name, 7, true⟩⟩ = some qs := by
    rw [headParameters?, if_pos rfl, ← hparen]
    exact hqs
  refine ⟨_, by rw [find?, findHead?_written hname, Option.map_some, ofHeadIn, hparameters], rfl, rfl, rfl, rfl, rfl,
    hsame, Parameter.signatures_congr hsame⟩

/-- A list with nothing but a name, a map with a comma inside, an address, brackets closed before they are opened, and a
default over three lines that mentions another parameter. -/
def sampleList : List Parameter :=
  [⟨"size".toList, none, 0, 0⟩, ⟨"shades".toList, some "map-merge((a: 1, b: \x7b2\x7d), $size)".toList, 0, 0⟩,
    ⟨"src".toList, some "url(http://host/a//b)".toList, 0, 0⟩, ⟨"odd".toList, some "\x7dx,y\x7b".toList, 0, 0⟩,
    ⟨"steps".toList, some "(\n  1px,\n  $size)".toList, 0, 0⟩]

theorem find?_written_sampleList :
    (Reference.isName "card".toList = true ∧ (∀ p ∈ sampleList, p.IsWritable) ∧
      (sampleList.map Parameter.name).Nodup) ∧
    ∃ m, find? (written "card".toList sampleList) "card".toList ⟨.root, ["a.scss".toList]⟩ = some m ∧
      m.name = "card".toList ∧
      m.file = ⟨.root, ["a.scss".toList]⟩ ∧ m.line = 0 ∧ m.column = 0 ∧ m.nameColumn = 7 ∧
      m.parameters.map (fun q => (q.name, q.default)) = sampleList.map (fun p => (p.name, p.default)) ∧
      m.signature = Parameter.signatures sampleList := by
  have hname : Reference.isName "card".toList = true := by decide
  have hps : ∀ p ∈ sampleList, p.IsWritable := by decide +kernel
  have hnames : (sampleList.map Parameter.name).Nodup := by decide
  exact ⟨⟨hname, hps, hnames⟩, find?_written _ _ _ hname hps hnames⟩

end Mixin

end SassModules
