import SassModules.Proofs.Lookup

/-!
# Where definitions and parameters stand

A definition carries the place where it was found. `BindsAt`, `DefinesAt` and `MentionsAt` say what is written at a
column of a line: the binding of a variable, the name of a mixin, a mention of a parameter. A variable that is looked up
stands where it is bound (`Variable.find?_place`), a mixin where it is named, with the keyword at its own column
(`Mixin.find?_place`). The parameters of a mixin are looked for a second time, in lines without comments and the first
of them from a column on; each stands at a mention of its name, or, when none is found near the definition, at the
keyword (`Mixin.find?_parameter_place`).
-/

namespace SassModules

/-! ## What is written at a column -/

/-- From the column on, the line holds a name, white space and a colon. -/
def BindsAt (line : Text) (column : Nat) (name : Text) : Prop :=
  ∃ b rest, (∀ c ∈ b, Text.isBlank c = true) ∧ line.drop column = name ++ (b ++ ':' :: rest)

/-- At the column stands a name, as the whole word between `@mixin` with white space and an opening bracket. -/
def DefinesAt (line : Text) (column : Nat) (name : Text) : Prop :=
  ∃ front b b' bracket rest, b ≠ [] ∧ (∀ c ∈ b, Text.isBlank c = true) ∧ Reference.isName name = true ∧
    (∀ c ∈ b', Text.isBlank c = true) ∧ (bracket = '(' ∨ bracket = '{') ∧
    line = front ++ ("@mixin".toList ++ b) ++ (name ++ (b' ++ bracket :: rest)) ∧
    column = (front ++ ("@mixin".toList ++ b)).length

/-- From the column on, the line holds `$name`, and the name ends there. -/
def MentionsAt (line : Text) (column : Nat) (name : Text) : Prop :=
  ∃ rest, line.drop column = '$' :: name ++ rest ∧ ∀ c ∈ rest.head?, Text.isNameChar c = false

theorem MentionsAt.lt_length {line name : Text} {column : Nat} (h : MentionsAt line column name) :
    column < line.length := by
  obtain ⟨rest, hdrop, -⟩ := h
  exact List.length_lt_of_drop_ne_nil (by rw [hdrop]; simp)

/-- From the column on, the line holds the keyword of a mixin. -/
def KeywordAt (line : Text) (column : Nat) : Prop := "@mixin".toList <+: line.drop column

/-- The name that is defined stands at the column. -/
theorem DefinesAt.drop_eq {line name : Text} {column : Nat} (h : DefinesAt line column name) :
    name <+: line.drop column := by
  obtain ⟨front, b, b', bracket, rest, -, -, -, -, -, rfl, rfl⟩ := h
  rw [List.drop_left]
  exact List.prefix_append _ _

/-! ## The leftmost match -/

namespace Pattern

variable {α : Type} {pat : Pattern α} {h : Hit α}

/-- The leftmost match from a column on is a match at its own column. -/
theorem exists_of_firstHitFrom? : ∀ (s : Text) (column : Nat), pat.firstHitFrom? column s = some h →
    ∃ k rest, h.start = column + k ∧ pat (s.drop k) = some (h.value, rest)
  | [], _, hfound => by cases hfound
  | c :: s, column, hfound => by
    unfold firstHitFrom? at hfound
    split at hfound
    · obtain ⟨k, rest, hstart, hk⟩ := exists_of_firstHitFrom? s (column + 1) hfound
      exact ⟨k + 1, rest, by omega, hk⟩
    · rename_i value rest heq
      obtain rfl := Option.some.inj hfound
      exact ⟨0, rest, rfl, heq⟩

end Pattern

/-! ## Lines of a text -/

namespace Source

variable {content line : Text} {n : Nat}

/-- A line of code is a line of the text that is no comment. -/
theorem of_mem_codeLines (h : (line, n) ∈ codeLines content) :
    content.lines[n]? = some line ∧ isCommentLine line = false := by
  obtain ⟨hmem, hcode⟩ := List.mem_filter.1 h
  exact ⟨List.mk_mem_zipIdx_iff_getElem?.1 hmem, by simpa using hcode⟩

end Source

/-! ## Variables -/

/-- A variable that is looked up stands where it is bound, in a line of code. -/
theorem Variable.find?_place {content name : Text} {file : Path} {v : Variable}
    (h : Variable.find? content name file = some v) :
    v.file = file ∧ ∃ line, content.lines[v.line]? = some line ∧ Source.isCommentLine line = false ∧
      BindsAt line v.column name := by
  obtain ⟨⟨line, n⟩, hline, hfound⟩ := List.exists_of_findSome?_eq_some h
  obtain ⟨hit, hhit, rfl⟩ := Option.map_eq_some_iff.1 hfound
  obtain ⟨hget, hcode⟩ := Source.of_mem_codeLines hline
  obtain ⟨k, rest, hstart, hk⟩ := Pattern.exists_of_firstHitFrom? line 0 hhit
  obtain ⟨-, b, hblank, heq⟩ := Pattern.bindingOf_eq_some_iff.1 hk
  refine ⟨rfl, line, hget, hcode, b, hit.value, hblank, ?_⟩
  show line.drop hit.start = _
  rw [hstart, Nat.zero_add, heq]

/-! ## Mixins -/

namespace Mixin

variable {content name : Text} {file : Path} {m : Mixin}

/-- A head that is found stands in a line of code, with the keyword at its column and the name behind it. -/
theorem findHead?_place {n : Nat} {h : Hit Head} (hfound : findHead? content name = some (n, h)) :
    h.value.name = name ∧ ∃ line, content.lines[n]? = some line ∧ Source.isCommentLine line = false ∧
      KeywordAt line h.start ∧ DefinesAt line (h.start + h.value.nameOffset) name := by
  have hname : h.value.name = name := by simpa using List.find?_some hfound
  obtain ⟨⟨line, n'⟩, hline, hhit⟩ := List.mem_flatMap.1 (List.mem_of_find?_eq_some hfound)
  obtain ⟨h', hhit', heq⟩ := List.mem_map.1 hhit
  obtain ⟨rfl, rfl⟩ := Prod.mk.inj heq
  obtain ⟨hget, hcode⟩ := Source.of_mem_codeLines hline
  obtain ⟨rest, hhead, -⟩ := Pattern.exists_of_mem_hits hhit'
  obtain ⟨b, b', bracket, hb, hblank, hword, hblank', hbracket, hs, hoffset⟩ := Pattern.mixinHead_eq_some hhead
  have hle : h'.start < line.length := List.length_lt_of_drop_ne_nil (by rw [← hs]; simp)
  rw [hname] at hword hs
  refine ⟨hname, line, hget, hcode, ?_, line.take h'.start, b, b', bracket, rest, hb, hblank, hword, hblank', hbracket,
    ?_, ?_⟩
  · show "@mixin".toList <+: line.drop h'.start
    rw [← hs, List.append_assoc]
    exact List.prefix_append _ _
  · rw [List.append_assoc, hs, List.take_append_drop]
  · rw [List.length_append, List.length_take_of_le (Nat.le_of_lt hle), hoffset]

theorem find?_eq_some_iff : find? content name file = some m ↔
    ∃ n h, findHead? content name = some (n, h) ∧ ofHeadIn content.lines file (n, h) = m := by
  simp only [find?, Option.map_eq_some_iff, Prod.exists]

/-- A mixin that is looked up stands where it is named, in a line of code, with the keyword at its column. -/
theorem find?_place (h : find? content name file = some m) :
    m.file = file ∧ ∃ line, content.lines[m.line]? = some line ∧ Source.isCommentLine line = false ∧
      KeywordAt line m.column ∧ DefinesAt line m.nameColumn name := by
  obtain ⟨n, head, hfound, rfl⟩ := find?_eq_some_iff.1 h
  exact ⟨rfl, (findHead?_place hfound).2⟩

end Mixin

/-! ## Parameters -/

namespace Parameter

variable {name : Text}

/-- What is cut off as a comment begins with a slash. -/
theorem dropCommentAfter_append (line : Text) : ∀ before : Option Char,
    ∃ cut, dropCommentAfter before line ++ cut = line ∧ ∀ c ∈ cut.head?, c = '/' := by
  induction line with
  | nil => exact fun _ => ⟨[], rfl, nofun⟩
  | cons c s ih =>
    intro before
    unfold dropCommentAfter
    split
    · rename_i hcomment
      have hslash : c = '/' := by
        simp only [Bool.and_eq_true, List.isPrefixOf_iff_prefix] at hcomment
        exact (List.cons_prefix_cons.1 hcomment.1).1.symm
      exact ⟨c :: s, rfl, fun c' hc' => (Option.some.inj hc').symm.trans hslash⟩
    · obtain ⟨cut, happend, hcut⟩ := ih (some c)
      exact ⟨cut, congrArg (c :: ·) happend, hcut⟩

theorem mention_eq_some_iff {s rest : Text} : mention name s = some ((), rest) ↔
    s = '$' :: name ++ rest ∧ ∀ c ∈ rest.head?, Text.isNameChar c = false := by
  simp only [mention, Option.bind_eq_bind, Option.bind_eq_some_iff, List.isPrefixOf?_eq_some_iff_append_eq,
    Option.some.injEq, Prod.mk.injEq, true_and]
  constructor
  · rintro ⟨u, rfl, ⟨⟩, hend, rfl⟩
    refine ⟨rfl, fun c hc => ?_⟩
    rw [Option.mem_def.1 hc] at hend
    simpa [guard] using hend
  · rintro ⟨rfl, hend⟩
    refine ⟨rest, rfl, (), ?_, rfl⟩
    cases rest with
    | nil => rfl
    | cons c rest => simp [guard, hend c rfl]

theorem mentionsAt_iff {line : Text} {column : Nat} :
    MentionsAt line column name ↔ ∃ rest, mention name (line.drop column) = some ((), rest) := by
  simp only [mention_eq_some_iff, MentionsAt]

/-- A mention in the line without its comment is one in the line itself, since no name goes on with a slash. -/
theorem mentionsAt_of_dropComment {line : Text} {column : Nat} (h : MentionsAt (dropComment line) column name) :
    MentionsAt line column name := by
  have hlt := h.lt_length
  obtain ⟨rest, hdrop, hend⟩ := h
  obtain ⟨cut, happend, hcut⟩ := dropCommentAfter_append line none
  refine ⟨rest ++ cut, ?_, ?_⟩
  · rw [← List.append_assoc, ← hdrop, ← List.drop_append_of_le_length (Nat.le_of_lt hlt)]
    exact congrArg (List.drop column) happend.symm
  · intro c hc
    cases rest with
    | nil =>
      obtain rfl := hcut c hc
      decide
    | cons c' rest => exact hend c hc

/-- A name is located at a mention in a line without its comment, in the first line not before the column. -/
theorem locateIn_place : ∀ (ls : List Text) (line column : Nat) {at_ : Nat × Nat},
    locateIn name line column ls = some at_ →
    ∃ i l, at_.1 = line + i ∧ ls[i]? = some l ∧ MentionsAt (dropComment l) at_.2 name ∧ (i = 0 → column ≤ at_.2)
  | [], _, _, _, h => by cases h
  | l :: ls, line, column, at_, h => by
    unfold locateIn at h
    split at h
    · rename_i hit hhit
      obtain rfl := Option.some.inj h
      obtain ⟨k, rest, hstart, hk⟩ := Pattern.exists_of_firstHitFrom? _ _ hhit
      rw [List.drop_drop, ← hstart] at hk
      exact ⟨0, l, rfl, rfl, mentionsAt_iff.2 ⟨rest, hk⟩, fun _ => hstart ▸ Nat.le_add_right _ _⟩
    · obtain ⟨i, l', hline, hget, hmention, -⟩ := locateIn_place ls (line + 1) 0 h
      exact ⟨i + 1, l', by omega, hget, hmention, fun hzero => absurd hzero (Nat.succ_ne_zero i)⟩

/-- A parameter is located at a mention of its name, or else at the definition. -/
theorem locate_place (lines : List Text) (name : Text) (line column : Nat) :
    (∃ l, lines[(locate lines name line column).1]? = some l ∧ MentionsAt l (locate lines name line column).2 name) ∨
      locate lines name line column = (line, column) := by
  unfold locate
  cases h : locateIn name line column ((lines.drop line).take (searchDepth + 1)) with
  | none => exact Or.inr rfl
  | some at_ =>
    obtain ⟨i, l, hline, hget, hmention, -⟩ := locateIn_place _ _ _ h
    refine Or.inl ⟨l, ?_, mentionsAt_of_dropComment hmention⟩
    rw [List.getElem?_take] at hget
    split at hget
    · rw [List.getElem?_drop] at hget
      rw [Option.getD_some, hline]
      exact hget
    · cases hget

/-- The parameters of a list are located one by one. -/
theorem of_mem_readList? {lines : List Text} {line paren column : Nat} {ps : List Parameter} {p : Parameter}
    (h : readList? lines line paren column = some ps) (hp : p ∈ ps) :
    (p.line, p.column) = locate lines p.name line column := by
  obtain ⟨t, -, rfl⟩ := Option.map_eq_some_iff.1 h
  obtain ⟨q, -, rfl⟩ := List.mem_map.1 hp
  rfl

end Parameter

/-- The parameters of a head are located from its keyword on. -/
theorem Mixin.of_mem_headParameters? {lines : List Text} {n : Nat} {h : Hit Head} {p : Parameter}
    (hp : p ∈ (headParameters? lines n h).getD []) : (p.line, p.column) = Parameter.locate lines p.name n h.start := by
  unfold headParameters? at hp
  split at hp
  · cases hlist : Parameter.readList? lines n (h.stop - 1) h.start with
    | none => rw [hlist] at hp; cases hp
    | some ps =>
      rw [hlist] at hp
      exact Parameter.of_mem_readList? hlist hp
  · cases hp

/-- A parameter of a mixin that is looked up stands at a mention of its name, or else at the keyword of the mixin. -/
theorem Mixin.find?_parameter_place {content name : Text} {file : Path} {m : Mixin} {p : Parameter}
    (h : Mixin.find? content name file = some m) (hp : p ∈ m.parameters) :
    ∃ line, content.lines[p.line]? = some line ∧
      (MentionsAt line p.column p.name ∨ p.line = m.line ∧ p.column = m.column ∧ KeywordAt line p.column) := by
  obtain ⟨n, head, hfound, rfl⟩ := find?_eq_some_iff.1 h
  obtain ⟨-, line, hget, -, hkeyword, -⟩ := findHead?_place hfound
  have hat : (p.line, p.column) = Parameter.locate content.lines p.name n head.start := of_mem_headParameters? hp
  rcases Parameter.locate_place content.lines p.name n head.start with ⟨l, hl, hmention⟩ | hdefault
  · rw [← hat] at hl hmention
    exact ⟨l, hl, Or.inl hmention⟩
  · obtain ⟨hline, hcolumn⟩ := Prod.mk.inj (hat.trans hdefault)
    exact ⟨line, hline ▸ hget, Or.inr ⟨hline, hcolumn, hcolumn ▸ hkeyword⟩⟩

end SassModules
