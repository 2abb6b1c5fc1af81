import SassModules.Proofs.Earliest
import SassModules.Proofs.Parens

/-!
# Where a parameter is declared

A parameter is declared by a piece of its list. `Mixin.declared` reads a list with the places carried along: each
parameter stands at the `$` that begins its piece. The reader of a mixin does not carry places along, it looks for the
name once more, from the keyword on; so a parameter may be found where an earlier default mentions it.

`of_mem_declared` says what is written at a declared place: the name as a whole, in a line of the list without its
comment. The search gives the first such mention (`isLeast_locate`), so a parameter is located at its own declaration
exactly when nothing from the keyword on mentions it before, and when the list does not stand in a comment of its own
line (`Mixin.located_iff_first_mention`).
-/

namespace SassModules

/-! ## Places in a text -/

namespace Text

/-- The place, line and column, where a text ends that begins at a place. -/
def advance (place : Nat × Nat) : Text → Nat × Nat
  | [] => place
  | c :: s => if c = '\n' then advance (place.1 + 1, 0) s else advance (place.1, place.2 + 1) s

theorem advance_append (a b : Text) (place : Nat × Nat) : advance place (a ++ b) = advance (advance place a) b := by
  induction a generalizing place with
  | nil => rfl
  | cons c a ih =>
    rw [List.cons_append, advance, advance]
    split
    · exact ih _
    · exact ih _

/-- No line has a line feed in it. -/
theorem newline_not_mem_of_mem_lines {t l : Text} (h : l ∈ lines t) : '\n' ∉ l := by
  induction t generalizing l with
  | nil =>
    obtain rfl := List.mem_singleton.1 (show l ∈ [[]] from h)
    exact List.not_mem_nil
  | cons c t ih =>
    obtain ⟨first, rest, hlines⟩ := exists_lines t
    rw [lines_cons, hlines] at h
    rw [hlines] at ih
    split at h
    · rcases List.mem_cons.1 h with rfl | h
      · exact List.not_mem_nil
      · exact ih h
    · rename_i hc
      rw [List.modifyHead_cons] at h
      rcases List.mem_cons.1 h with rfl | h
      · rw [List.mem_cons, not_or]
        exact ⟨Ne.symm hc, ih List.mem_cons_self⟩
      · exact ih (List.mem_cons_of_mem _ h)

/-- The place behind a beginning of a text is a place in one of its lines: what follows there is the first line of the
rest. Columns of the first line count from where the text begins. -/
theorem exists_line_of_advance {back l : Text} {ls : List Text} (hback : lines back = l :: ls) (front : Text)
    (place : Nat × Nat) :
    ∃ i k line, (lines (front ++ back))[i]? = some line ∧ line.drop k = l ∧
      advance place front = (place.1 + i, if i = 0 then place.2 + k else k) := by
  induction front generalizing place with
  | nil => exact ⟨0, 0, l, by rw [List.nil_append, hback]; rfl, rfl, rfl⟩
  | cons c front ih =>
    rw [List.cons_append, lines_cons, advance]
    obtain ⟨first, rest, hlines⟩ := exists_lines (front ++ back)
    rw [hlines] at ih ⊢
    by_cases hc : c = '\n'
    · rw [if_pos hc, if_pos hc]
      obtain ⟨i, k, line, hline, hdrop, hplace⟩ := ih (place.1 + 1, 0)
      refine ⟨i + 1, k, line, hline, hdrop, ?_⟩
      rw [hplace, if_neg (Nat.succ_ne_zero i), Nat.zero_add, ite_self, Nat.add_right_comm, Nat.add_assoc]
    · rw [if_neg hc, if_neg hc, List.modifyHead_cons]
      obtain ⟨i, k, line, hline, hdrop, hplace⟩ := ih (place.1, place.2 + 1)
      cases i with
      | zero =>
        obtain rfl : first = line := Option.some.inj hline
        refine ⟨0, k + 1, c :: first, rfl, hdrop, ?_⟩
        rw [hplace, if_pos rfl, if_pos rfl, Nat.add_right_comm, Nat.add_assoc]
      | succ i =>
        refine ⟨i + 1, k, line, hline, hdrop, ?_⟩
        rw [hplace, if_neg (Nat.succ_ne_zero i), if_neg (Nat.succ_ne_zero i)]

/-- White space is taken off the end of a text. -/
theorem exists_trimEnd_append (t : Text) : ∃ e, (∀ c ∈ e, isBlank c = true) ∧ trimEnd t ++ e = t := by
  refine ⟨(t.reverse.takeWhile isBlank).reverse, ?_, ?_⟩
  · intro c hc
    exact List.mem_takeWhile_imp (List.mem_reverse.1 hc)
  · rw [trimEnd, dropEndWhile, ← List.reverse_append, List.takeWhile_append_dropWhile, List.reverse_reverse]

end Text

/-! ## Lists read with their places -/

namespace Parameter

/-- The parameters that pieces declare, the first of which begins at a place: each stands at the first character of its
piece that is not white space. -/
def placed (start : Nat × Nat) : List Text → List Parameter
  | [] => []
  | x :: xs =>
    ((readPiece x).map fun p =>
      ⟨p.1, p.2, (Text.advance start (x.takeWhile Text.isBlank)).1,
        (Text.advance start (x.takeWhile Text.isBlank)).2⟩).toList ++
      placed (Text.advance start (x ++ [','])) xs

/-- The parameters that the list whose parenthesis stands at a position declares, with their places; a name may be
declared more than once. -/
def declared (lines : List Text) (line paren : Nat) : List Parameter :=
  ((listText? lines line paren).map fun t => placed (line, paren + 1) (topLevel t)).getD []

section Pieces

variable {t x name : Text} {default : Option Text} {start : Nat × Nat} {xs ys : List Text} {q : Parameter}

theorem pieces_ne_nil (depth : Int) (t : Text) : pieces depth t ≠ [] := by
  induction t generalizing depth with
  | nil => exact List.cons_ne_nil _ _
  | cons c s ih =>
    have hhead : ∀ d : Int, (pieces d s).modifyHead (c :: ·) ≠ [] := by
      intro d
      obtain ⟨x, xs, hxs⟩ := List.exists_cons_of_ne_nil (ih d)
      rw [hxs, List.modifyHead_cons]
      exact List.cons_ne_nil _ _
    rw [pieces]
    split
    · exact hhead _
    · split
      · exact hhead _
      · split
        · exact List.cons_ne_nil _ _
        · exact hhead _

/-- The pieces and the commas between them are the text. -/
theorem intercalate_pieces (depth : Int) (t : Text) : [','].intercalate (pieces depth t) = t := by
  induction t generalizing depth with
  | nil => rfl
  | cons c s ih =>
    have hhead : ∀ d : Int, [','].intercalate ((pieces d s).modifyHead (c :: ·)) = c :: s := by
      intro d
      have hs := ih d
      obtain ⟨x, xs, hxs⟩ := List.exists_cons_of_ne_nil (pieces_ne_nil d s)
      rw [hxs] at hs ⊢
      rw [List.modifyHead_cons]
      cases xs with
      | nil => rw [List.intercalate_singleton] at hs ⊢; rw [hs]
      | cons y ys => rw [List.intercalate_cons_cons] at hs ⊢; rw [← hs]; rfl
    rw [pieces]
    split
    · exact hhead _
    · split
      · exact hhead _
      · split
        · rename_i hcomma
          obtain ⟨x, xs, hxs⟩ := List.exists_cons_of_ne_nil (pieces_ne_nil depth s)
          have hs := ih depth
          rw [hxs] at hs ⊢
          rw [List.intercalate_cons_cons, hs, hcomma.1]
          rfl
        · exact hhead _

theorem topLevel_prefix_pieces (t : Text) : topLevel t <+: pieces 0 t := by
  rw [topLevel]
  split
  · exact List.dropLast_prefix _
  · exact List.prefix_rfl

/-- A piece that is read begins, behind white space, with `$` and the whole name. -/
theorem readPiece_eq_some (h : readPiece x = some (name, default)) :
    Reference.isName name = true ∧ ∃ rest, x = x.takeWhile Text.isBlank ++ '$' :: (name ++ rest) ∧
      ∀ c ∈ rest.head?, Text.isNameChar c = false := by
  simp only [readPiece, Option.bind_eq_bind, Option.bind_eq_some_iff, Prod.exists] at h
  obtain ⟨v, hv, n, s, hword, hrest⟩ := h
  have hn : n = name := by
    split at hrest
    · exact (Prod.mk.inj (Option.some.inj hrest)).1
    · obtain ⟨-, -, hpair⟩ := Option.bind_eq_some_iff.1 hrest
      exact (Prod.mk.inj (Option.some.inj hpair)).1
  subst hn
  obtain ⟨hname, rfl, hend⟩ := Pattern.word_eq_some_iff.1 hword
  have htrim : x.trim = '$' :: (n ++ s) := (Pattern.literal_eq_some_iff.1 hv).symm
  obtain ⟨e, hblank, happend⟩ := Text.exists_trimEnd_append (Text.trimStart x)
  refine ⟨hname, s ++ e, ?_, ?_⟩
  · have hstart : Text.trimStart x = '$' :: (n ++ (s ++ e)) := by
      rw [← happend, show Text.trimEnd (Text.trimStart x) = _ from htrim]
      simp
    rw [← hstart]
    exact List.takeWhile_append_dropWhile.symm
  · intro c hc
    cases s with
    | nil => exact Text.isNameChar_of_isBlank (hblank c (List.mem_of_mem_head? hc))
    | cons c' s => exact hend c hc

/-- A placed parameter begins a piece: at its place the text goes on with `$` and the whole name. -/
theorem of_mem_placed (hq : q ∈ placed start xs) (hxs : xs <+: ys) :
    Reference.isName q.name = true ∧ ∃ front rest, [','].intercalate ys = front ++ '$' :: (q.name ++ rest) ∧
      (∀ c ∈ rest.head?, Text.isNameChar c = false) ∧ (q.line, q.column) = Text.advance start front := by
  induction xs generalizing start ys with
  | nil => cases hq
  | cons x xs ih =>
    obtain ⟨zs, rfl⟩ := hxs
    rw [placed] at hq
    rcases List.mem_append.1 hq with hq | hq
    · obtain ⟨⟨n, d⟩, hread, rfl⟩ := Option.map_eq_some_iff.1 (Option.mem_toList.1 hq)
      obtain ⟨hname, rest, hx, hend⟩ := readPiece_eq_some hread
      refine ⟨hname, x.takeWhile Text.isBlank, ?_⟩
      -- the piece is followed by nothing or by a comma
      obtain ⟨behind, hbehind, hcomma⟩ : ∃ behind : Text, [','].intercalate (x :: xs ++ zs) = x ++ behind ∧
          ∀ c ∈ behind.head?, c = ',' := by
        rw [List.cons_append]
        cases xs ++ zs with
        | nil => exact ⟨[], by rw [List.intercalate_singleton, List.append_nil], nofun⟩
        | cons y ys =>
          refine ⟨[','] ++ [','].intercalate (y :: ys), by rw [List.intercalate_cons_cons, List.append_assoc], ?_⟩
          rintro c ⟨⟩
          rfl
      refine ⟨rest ++ behind, ?_, ?_, rfl⟩
      · rw [hbehind]
        nth_rewrite 1 [hx]
        simp
      · intro c hc
        cases rest with
        | nil =>
          obtain rfl := hcomma c hc
          decide
        | cons c' rest => exact hend c hc
    · obtain ⟨y, ys, hys⟩ : ∃ y ys, xs ++ zs = y :: ys := by
        cases xs with
        | nil => cases hq
        | cons y ys => exact ⟨y, ys ++ zs, rfl⟩
      obtain ⟨hname, front, rest, happend, hend, hplace⟩ := ih hq (List.prefix_append xs zs)
      refine ⟨hname, x ++ [','] ++ front, rest, ?_, hend, ?_⟩
      · rw [hys] at happend
        rw [List.cons_append, hys, List.intercalate_cons_cons, happend]
        simp
      · rw [hplace, ← Text.advance_append]

end Pieces

/-! ## The list of a mixin -/

section Lists

variable {lines : List Text} {line paren column : Nat} {ps : List Parameter} {p q : Parameter}

/-- A name that is kept is kept with what its first piece says. -/
theorem find?_of_mem_distinct {seen : List Text} {l : List (Text × Option Text)} {d : Text × Option Text}
    (h : d ∈ distinct seen l) : d.1 ∉ seen ∧ l.find? (·.1 == d.1) = some d := by
  induction l generalizing seen with
  | nil => cases h
  | cons e l ih =>
    rw [distinct] at h
    split at h
    · rename_i hseen
      obtain ⟨hd, hfind⟩ := ih h
      have hne : e.1 ≠ d.1 := fun heq => hd (heq ▸ hseen)
      exact ⟨hd, by rw [List.find?_cons_of_neg (by simpa using hne), hfind]⟩
    · rename_i hseen
      rcases List.mem_cons.1 h with rfl | h
      · exact ⟨hseen, List.find?_cons_of_pos (by simp)⟩
      · obtain ⟨hd, hfind⟩ := ih h
        rw [List.mem_cons, not_or] at hd
        exact ⟨hd.2, by rw [List.find?_cons_of_neg (by simpa using Ne.symm hd.1), hfind]⟩

theorem map_placed (start : Nat × Nat) (xs : List Text) :
    (placed start xs).map (fun q => (q.name, q.default)) = xs.filterMap readPiece := by
  induction xs generalizing start with
  | nil => rfl
  | cons x xs ih =>
    rw [placed, List.map_append, ih]
    cases hread : readPiece x with
    | none => rw [List.filterMap_cons_none hread]; rfl
    | some d => rw [List.filterMap_cons_some hread]; rfl

/-- A parameter of a list is the first declared one of its name, apart from the place. -/
theorem exists_declared (h : readList? lines line paren column = some ps) (hp : p ∈ ps) :
    ∃ q, (declared lines line paren).find? (·.name == p.name) = some q ∧ q.name = p.name ∧ q.default = p.default := by
  obtain ⟨t, ht, rfl⟩ := Option.map_eq_some_iff.1 h
  obtain ⟨d, hd, rfl⟩ := List.mem_map.1 hp
  have hfind := (find?_of_mem_distinct hd).2
  rw [← map_placed (line, paren + 1), List.find?_map] at hfind
  obtain ⟨q, hq, rfl⟩ := Option.map_eq_some_iff.1 hfind
  refine ⟨q, ?_, rfl, rfl⟩
  rw [declared, ht]
  exact hq

/-- A declared parameter in the text of its list: `$` and the whole name stand behind what leads to its place. -/
theorem of_mem_declared {s : Text} (htext : textFrom lines line paren = '(' :: s) (hq : q ∈ declared lines line paren) :
    Reference.isName q.name = true ∧ ∃ front rest, textFrom lines line paren = front ++ '$' :: (q.name ++ rest) ∧
      (∀ c ∈ rest.head?, Text.isNameChar c = false) ∧ (q.line, q.column) = Text.advance (line, paren) front := by
  cases hlist : listText? lines line paren with
  | none =>
    rw [declared, hlist] at hq
    cases hq
  | some t =>
    rw [declared, hlist] at hq
    obtain ⟨hname, front, rest, happend, hend, hplace⟩ := of_mem_placed hq (topLevel_prefix_pieces t)
    rw [intercalate_pieces] at happend
    have hcapture : capture 1 s = some t := by
      rw [listText?, htext] at hlist
      exact hlist
    obtain ⟨behind, hs⟩ := exists_append_of_capture (Int.le_refl 1) hcapture
    refine ⟨hname, '(' :: front, rest ++ ')' :: behind, ?_, ?_, hplace⟩
    · rw [htext, hs, happend]
      simp
    · intro c hc
      cases rest with
      | nil =>
        obtain rfl : ')' = c := Option.some.inj hc
        decide
      | cons c' rest => exact hend c hc

/-- Without its comment a line has no line feed either. -/
theorem newline_not_mem_dropComment {l : Text} (h : '\n' ∉ l) : '\n' ∉ dropComment l := by
  obtain ⟨cut, happend, -⟩ := dropCommentAfter_append l none
  intro hmem
  exact h (happend ▸ List.mem_append_left cut hmem)

/-- The lines of the text from a position on are the lines without their comments. -/
theorem lines_textFrom {first : Text} {rest : List Text} (hfeed : ∀ l ∈ lines, '\n' ∉ l)
    (hlines : lines.drop line = first :: rest) :
    (textFrom lines line paren).lines = dropComment (first.drop paren) :: rest.map dropComment := by
  have hmem : ∀ l ∈ first :: rest, '\n' ∉ l := fun l hl => hfeed l (List.mem_of_mem_drop (hlines ▸ hl))
  rw [textFrom_eq_join hlines]
  refine List.splitOn_intercalate '\n' ?_ (List.cons_ne_nil _ _)
  intro l hl
  rcases List.mem_cons.1 hl with rfl | hl
  · apply newline_not_mem_dropComment
    exact fun hin => hmem first List.mem_cons_self (List.mem_of_mem_drop hin)
  · obtain ⟨l', hl', rfl⟩ := List.mem_map.1 hl
    exact newline_not_mem_dropComment (hmem l' (List.mem_cons_of_mem _ hl'))

/-- A declared parameter stands in the line of the parenthesis, behind it, or in a later line; in the line without its
comment its name is mentioned there. -/
theorem declared_place {first : Text} (hfeed : ∀ l ∈ lines, '\n' ∉ l) (hfirst : lines[line]? = some first)
    (hparen : first[paren]? = some '(') (hq : q ∈ declared lines line paren) :
    (q.line = line ∧ ∃ k, q.column = paren + k ∧ 0 < k ∧ MentionsAt (dropComment (first.drop paren)) k q.name) ∨
      line < q.line ∧ ∃ l, lines[q.line]? = some l ∧ MentionsAt (dropComment l) q.column q.name := by
  obtain ⟨hlt, hget⟩ := List.getElem?_eq_some_iff.1 hfirst
  have hlines : lines.drop line = first :: lines.drop (line + 1) := by rw [List.drop_eq_getElem_cons hlt, hget]
  obtain ⟨s, hs⟩ := textFrom_eq_cons hlines hparen
  obtain ⟨hname, front, rest, happend, hend, hplace⟩ := of_mem_declared hs hq
  -- the name does not go over the end of its line
  obtain ⟨l, ls, hl⟩ := Text.exists_lines rest
  have hback : Text.lines ('$' :: (q.name ++ rest)) = ('$' :: (q.name ++ l)) :: ls := by
    have hfree : '\n' ∉ '$' :: q.name := by
      rw [List.mem_cons, not_or]
      exact ⟨by decide, Pattern.not_mem_of_isName hname (by decide)⟩
    rw [← List.cons_append, Text.lines_append hfree, hl]
    rfl
  have hstop : ∀ c ∈ l.head?, Text.isNameChar c = false := by
    intro c hc
    obtain ⟨behind, rfl⟩ := Text.prefix_of_lines hl
    cases l with
    | nil => cases hc
    | cons c' l => exact hend c hc
  obtain ⟨i, k, found, hfound, hdrop, hadvance⟩ := Text.exists_line_of_advance hback front (line, paren)
  rw [← happend, lines_textFrom hfeed hlines] at hfound
  rw [hadvance] at hplace
  obtain ⟨hqline, hqcolumn⟩ := Prod.mk.inj hplace
  have hmention : MentionsAt found k q.name := ⟨l, hdrop, hstop⟩
  cases i with
  | zero =>
    obtain rfl := Option.some.inj hfound
    refine Or.inl ⟨hqline, k, hqcolumn, ?_, hmention⟩
    -- the parenthesis itself is no `$`
    rcases Nat.eq_zero_or_pos k with rfl | hk
    · obtain ⟨u, hu, -⟩ := closing?_eq hparen
      rw [hu, dropComment, dropCommentAfter_cons (by simp)] at hdrop
      cases hdrop
    · exact hk
  | succ i =>
    rw [List.getElem?_cons_succ, List.getElem?_map, List.getElem?_drop, Option.map_eq_some_iff] at hfound
    obtain ⟨l', hl', rfl⟩ := hfound
    refine Or.inr ⟨by omega, l', ?_, ?_⟩
    · rw [hqline, ← hl']
      congr 1
      omega
    · rw [hqcolumn]
      exact hmention

end Lists

/-! ## The first mention -/

section Mentions

variable {lines : List Text} {name : Text} {line column : Nat} {place : Nat × Nat}

/-- At a place, the lines without their comments mention `$name`. -/
def IsMention (lines : List Text) (name : Text) (place : Nat × Nat) : Prop :=
  ∃ l, lines[place.1]? = some l ∧ MentionsAt (dropComment l) place.2 name

/-- The search ends at or before every mention that lies on its way. -/
theorem locateIn_le {l : Text} {c : Nat} (hmention : MentionsAt (dropComment l) c name) : ∀ (ls : List Text)
    (line column j : Nat), ls[j]? = some l → (j = 0 → column ≤ c) →
    ∃ at_, locateIn name line column ls = some at_ ∧ toLex at_ ≤ toLex (line + j, c)
  | [], _, _, _, hl, _ => by cases hl
  | first :: ls, line, column, 0, hl, hcolumn => by
    obtain rfl : first = l := Option.some.inj hl
    obtain ⟨d, rfl⟩ := Nat.exists_eq_add_of_le (hcolumn rfl)
    have hlt : d < ((dropComment first).drop column).length := by
      have := hmention.lt_length
      rw [List.length_drop]
      omega
    obtain ⟨rest, hrest⟩ := mentionsAt_iff.1 hmention
    rw [← List.drop_drop] at hrest
    obtain ⟨h, hh, hle⟩ := Pattern.firstHitFrom?_le _ column d hlt hrest
    rw [locateIn, hh]
    refine ⟨_, rfl, ?_⟩
    rw [Prod.Lex.toLex_le_toLex]
    exact Or.inr ⟨rfl, hle⟩
  | first :: ls, line, column, j + 1, hl, _ => by
    rw [locateIn]
    split
    · refine ⟨_, rfl, ?_⟩
      rw [Prod.Lex.toLex_le_toLex]
      exact Or.inl (Nat.lt_add_of_pos_right (Nat.succ_pos j))
    · obtain ⟨at_, hat, hle⟩ := locateIn_le hmention ls (line + 1) 0 j hl fun _ => Nat.zero_le c
      refine ⟨at_, hat, ?_⟩
      rwa [Nat.add_assoc, Nat.add_comm 1 j] at hle

/-- What the search ends at is a mention from the definition on. -/
theorem isMention_of_locateIn {at_ : Nat × Nat}
    (h : locateIn name line column ((lines.drop line).take (searchDepth + 1)) = some at_) :
    IsMention lines name at_ ∧ toLex (line, column) ≤ toLex at_ := by
  obtain ⟨i, l, hline, hget, hmention, hcolumn⟩ := locateIn_place _ _ _ h
  have hl : lines[line + i]? = some l := by
    rw [List.getElem?_take] at hget
    split at hget
    · rwa [List.getElem?_drop] at hget
    · cases hget
  refine ⟨⟨l, hline ▸ hl, hmention⟩, ?_⟩
  rw [Prod.Lex.toLex_le_toLex]
  rcases Nat.eq_zero_or_pos i with rfl | hi
  · exact Or.inr ⟨hline.symm, hcolumn rfl⟩
  · exact Or.inl (hline ▸ Nat.lt_add_of_pos_right hi)

theorem locate_eq_or_isMention (lines : List Text) (name : Text) (line column : Nat) :
    locate lines name line column = (line, column) ∨ IsMention lines name (locate lines name line column) := by
  unfold locate
  cases h : locateIn name line column ((lines.drop line).take (searchDepth + 1)) with
  | none => exact Or.inl rfl
  | some at_ => exact Or.inr (isMention_of_locateIn h).1

/-- Where there is a mention near the definition, what is located is a mention from the definition on, and at or before
that one. -/
theorem locate_le (hmention : IsMention lines name place) (hfrom : toLex (line, column) ≤ toLex place)
    (hnear : place.1 ≤ line + searchDepth) :
    IsMention lines name (locate lines name line column) ∧
      toLex (line, column) ≤ toLex (locate lines name line column) ∧
      toLex (locate lines name line column) ≤ toLex place := by
  obtain ⟨l, hl, hl'⟩ := hmention
  rw [Prod.Lex.toLex_le_toLex] at hfrom
  obtain ⟨j, hj⟩ : ∃ j, place.1 = line + j := Nat.exists_eq_add_of_le (by omega)
  have hget : ((lines.drop line).take (searchDepth + 1))[j]? = some l := by
    rw [List.getElem?_take_of_lt (by omega), List.getElem?_drop, ← hj, hl]
  obtain ⟨at_, hat, hle⟩ := locateIn_le hl' _ line column j hget (by omega)
  rw [← hj] at hle
  obtain ⟨hmention, hfrom⟩ := isMention_of_locateIn hat
  rw [locate, hat, Option.getD_some]
  exact ⟨hmention, hfrom, hle⟩

/-- Where there is a mention near the definition, the first mention from the definition on is located. -/
theorem isLeast_locate (hmention : IsMention lines name place) (hfrom : toLex (line, column) ≤ toLex place)
    (hnear : place.1 ≤ line + searchDepth) :
    IsLeast {other : Nat ×ₗ Nat | toLex (line, column) ≤ other ∧ IsMention lines name (ofLex other)}
      (toLex (locate lines name line column)) := by
  obtain ⟨hlocated, hbehind, hle⟩ := locate_le hmention hfrom hnear
  refine ⟨⟨hbehind, hlocated⟩, ?_⟩
  rintro other ⟨hother, hmention'⟩
  rcases le_total (toLex place) other with hlater | hearlier
  · exact le_trans hle hlater
  · -- a mention before a near one is near itself
    have hline : (ofLex other).1 ≤ place.1 := by
      rcases (Prod.Lex.le_iff).1 hearlier with h | ⟨h, -⟩
      · exact Nat.le_of_lt h
      · exact Nat.le_of_eq h
    exact (locate_le hmention' hother (Nat.le_trans hline hnear)).2.2

end Mentions

/-! ## Comments in the line of the list -/

section Visible

variable {lines : List Text} {first : Text} {line paren : Nat} {q : Parameter}

/-- As far as a line is no comment, what is left of an end of it is an end of what is left of it. -/
theorem exists_drop_dropCommentAfter (l : Text) : ∀ (before : Option Char) (k : Nat),
    k ≤ (dropCommentAfter before l).length →
    ∃ before', (dropCommentAfter before l).drop k = dropCommentAfter before' (l.drop k) := by
  induction l with
  | nil => exact fun before k _ => ⟨before, by simp [dropCommentAfter]⟩
  | cons c s ih =>
    intro before k hk
    cases k with
    | zero => exact ⟨before, rfl⟩
    | succ k =>
      rw [dropCommentAfter] at hk ⊢
      split at hk
      · exact absurd hk (Nat.not_succ_le_zero k)
      · rename_i hkeep
        rw [if_neg hkeep]
        exact ih (some c) k (Nat.le_of_succ_le_succ hk)

/-- Where the parenthesis is outside of a comment, the line goes on behind it as the list does. -/
theorem drop_dropComment (hparen : first[paren]? = some '(') (hvisible : paren < (dropComment first).length) :
    (dropComment first).drop paren = dropComment (first.drop paren) := by
  obtain ⟨before, hdrop⟩ := exists_drop_dropCommentAfter first none paren (Nat.le_of_lt hvisible)
  obtain ⟨u, hu, -⟩ := closing?_eq hparen
  show (dropCommentAfter none first).drop paren = _
  rw [hdrop, hu, dropComment, dropCommentAfter_cons (by simp), dropCommentAfter_cons (by simp)]

/-- The search can see a declared parameter unless it stands in the line of the parenthesis and that in a comment. -/
theorem isMention_declared_iff (hfeed : ∀ l ∈ lines, '\n' ∉ l) (hfirst : lines[line]? = some first)
    (hparen : first[paren]? = some '(') (hq : q ∈ declared lines line paren) :
    IsMention lines q.name (q.line, q.column) ↔ (q.line = line → paren < (dropComment first).length) := by
  rcases declared_place hfeed hfirst hparen hq with ⟨hline, k, hcolumn, -, hmention⟩ | ⟨hline, l, hl, hmention⟩
  · constructor
    · rintro ⟨l, hl, hmention'⟩ -
      have hget : lines[q.line]? = some l := hl
      rw [hline, hfirst] at hget
      obtain rfl := Option.some.inj hget
      have hlt : q.column < (dropComment first).length := hmention'.lt_length
      omega
    · intro hvisible
      refine ⟨first, hline ▸ hfirst, ?_⟩
      obtain ⟨rest, hdrop, hend⟩ := hmention
      refine ⟨rest, ?_, hend⟩
      show (dropComment first).drop q.column = _
      rw [hcolumn, ← List.drop_drop, drop_dropComment hparen (hvisible hline), hdrop]
  · exact ⟨fun _ heq => absurd heq (Nat.ne_of_gt hline), fun _ => ⟨l, hl, hmention⟩⟩

/-- At its place a declared parameter is written in its line. -/
theorem mentionsAt_declared (hfeed : ∀ l ∈ lines, '\n' ∉ l) (hfirst : lines[line]? = some first)
    (hparen : first[paren]? = some '(') (hq : q ∈ declared lines line paren) :
    ∃ l, lines[q.line]? = some l ∧ MentionsAt l q.column q.name := by
  rcases declared_place hfeed hfirst hparen hq with ⟨hline, k, hcolumn, -, hmention⟩ | ⟨hline, l, hl, hmention⟩
  · obtain ⟨rest, hdrop, hend⟩ := mentionsAt_of_dropComment hmention
    refine ⟨first, hline ▸ hfirst, rest, ?_, hend⟩
    rw [hcolumn, ← List.drop_drop, hdrop]
  · exact ⟨l, hl, mentionsAt_of_dropComment hmention⟩

/-- A declared parameter stands behind everything in front of the parenthesis. -/
theorem lt_declared {column : Nat} (hfeed : ∀ l ∈ lines, '\n' ∉ l) (hfirst : lines[line]? = some first)
    (hparen : first[paren]? = some '(') (hcolumn : column < paren) (hq : q ∈ declared lines line paren) :
    toLex (line, column) < toLex (q.line, q.column) := by
  rw [Prod.Lex.toLex_lt_toLex]
  rcases declared_place hfeed hfirst hparen hq with ⟨hline, k, hk, -, -⟩ | ⟨hline, -⟩
  · exact Or.inr ⟨hline.symm, show column < q.column by omega⟩
  · exact Or.inl hline

/-- A declared parameter is located at its own place exactly when the search can see it and nothing before it. -/
theorem locate_eq_declared_iff {column : Nat} (hfeed : ∀ l ∈ lines, '\n' ∉ l) (hfirst : lines[line]? = some first)
    (hparen : first[paren]? = some '(') (hcolumn : column < paren) (hq : q ∈ declared lines line paren)
    (hnear : q.line ≤ line + searchDepth) :
    locate lines q.name line column = (q.line, q.column) ↔
      (q.line = line → paren < (dropComment first).length) ∧
      ∀ place, toLex (line, column) ≤ toLex place → toLex place < toLex (q.line, q.column) →
        ¬ IsMention lines q.name place := by
  have hseen := isMention_declared_iff hfeed hfirst hparen hq
  have hlt := lt_declared hfeed hfirst hparen hcolumn hq
  constructor
  · intro hown
    have hmention : IsMention lines q.name (q.line, q.column) := by
      rcases locate_eq_or_isMention lines q.name line column with hstart | hmention
      · rw [← hown, hstart] at hlt
        exact absurd hlt (lt_irrefl _)
      · exact hown ▸ hmention
    have hleast := isLeast_locate hmention (le_of_lt hlt) hnear
    rw [hown] at hleast
    exact ⟨hseen.1 hmention, fun place hfrom hbefore hother => absurd hbefore (not_lt_of_ge (hleast.2 ⟨hfrom, hother⟩))⟩
  · rintro ⟨hvisible, hfirstMention⟩
    obtain ⟨hmention, hfrom, hle⟩ := locate_le (hseen.2 hvisible) (le_of_lt hlt) hnear
    rcases lt_or_eq_of_le hle with hbefore | heq
    · exact absurd hmention (hfirstMention _ hfrom hbefore)
    · exact toLex.injective heq

end Visible

end Parameter

/-! ## Parameters of a mixin -/

namespace Mixin

open Parameter

/-- The column of the bracket behind the name of a mixin. -/
def bracketColumn (lines : List Text) (m : Mixin) : Nat :=
  m.nameColumn + m.name.length +
    ((((lines[m.line]?).getD []).drop (m.nameColumn + m.name.length)).takeWhile Text.isBlank).length

/-- The parameters of a mixin, each at the `$` that begins its piece of the list. -/
def declared (lines : List Text) (m : Mixin) : List Parameter := Parameter.declared lines m.line (m.bracketColumn lines)

variable {content name : Text} {file : Path} {m : Mixin} {p : Parameter}

/-- The list of a head opens at the bracket behind the name, which stands behind the keyword. -/
theorem bracket_of_head (file : Path) {n : Nat} {h : Hit Head} (hfound : findHead? content name = some (n, h))
    (hlist : h.value.hasList = true) :
    ∃ first, content.lines[n]? = some first ∧ first[h.stop - 1]? = some '(' ∧ h.start < h.stop - 1 ∧
      (ofHeadIn content.lines file (n, h)).bracketColumn content.lines = h.stop - 1 := by
  obtain ⟨⟨line, n'⟩, hline, hhit⟩ := List.mem_flatMap.1 (List.mem_of_find?_eq_some hfound)
  obtain ⟨h', hhit', heq⟩ := List.mem_map.1 hhit
  obtain ⟨rfl, rfl⟩ := Prod.mk.inj heq
  obtain ⟨hget, -⟩ := Source.of_mem_codeLines hline
  obtain ⟨rest, hhead, hlength⟩ := Pattern.exists_of_mem_hits hhit'
  obtain ⟨b, b', -, -, -, hblank, hs, hoffset⟩ := Pattern.mixinHead_eq_append hhead
  have hbracket : Pattern.headBracket h'.value = '(' := by rw [Pattern.headBracket, if_pos hlist]
  rw [hbracket] at hs
  have hstop : h'.stop - 1 = h'.start + (h'.value.nameOffset + h'.value.name.length + b'.length) := by
    rw [Hit.stop, hlength, ← hs, hoffset]
    simp only [List.length_append, List.length_cons]
    omega
  have hkeyword : 0 < h'.value.nameOffset := by
    rw [hoffset, List.length_append]
    exact Nat.add_pos_left (by decide) _
  have hbehind : line.drop (h'.start + (h'.value.nameOffset + h'.value.name.length)) = b' ++ '(' :: rest := by
    rw [← List.drop_drop, ← hs, hoffset, ← List.append_assoc, ← List.length_append, List.drop_left]
  refine ⟨line, hget, ?_, by omega, ?_⟩
  · rw [hstop, ← Nat.add_assoc, ← List.getElem?_drop, hbehind, List.getElem?_append_right (Nat.le_refl _), Nat.sub_self]
    rfl
  · have hblanks : (b' ++ '(' :: rest).takeWhile Text.isBlank = b' :=
      (Prod.mk.inj (Pattern.run_append hblank (by rintro c ⟨⟩; decide))).1
    show h'.start + h'.value.nameOffset + h'.value.name.length +
      ((((content.lines[n']?).getD []).drop (h'.start + h'.value.nameOffset + h'.value.name.length)).takeWhile
        Text.isBlank).length = _
    rw [hget, Option.getD_some, Nat.add_assoc h'.start, hbehind, hblanks, hstop]
    omega

/-- **Where a parameter is located.** A parameter of a mixin that is looked up is declared by the first piece of its list
with its name, and the declaration stands at a `$` with the whole name. If it begins no more than ten lines below the
keyword, the parameter is located there exactly when the list does not open in a comment of that same line and no
mention of the name comes before, from the keyword on. If the list does not open in such a comment, the parameter is in
any case located at the first mention from the keyword on, which is not behind the declaration. -/
theorem located_iff_first_mention (hm : find? content name file = some m) (hp : p ∈ m.parameters) :
    ∃ first q, content.lines[m.line]? = some first ∧ (m.declared content.lines).find? (·.name == p.name) = some q ∧
      q.name = p.name ∧ q.default = p.default ∧ (∃ l, content.lines[q.line]? = some l ∧ MentionsAt l q.column q.name) ∧
      (q.line ≤ m.line + 10 →
        (p = q ↔ (q.line = m.line → m.bracketColumn content.lines < (dropComment first).length) ∧
          ∀ place, toLex (m.line, m.column) ≤ toLex place → toLex place < toLex (q.line, q.column) →
            ¬ IsMention content.lines p.name place) ∧
        ((q.line = m.line → m.bracketColumn content.lines < (dropComment first).length) →
          IsLeast {place : Nat ×ₗ Nat | toLex (m.line, m.column) ≤ place ∧ IsMention content.lines p.name (ofLex place)}
            (toLex (p.line, p.column)) ∧
          toLex (p.line, p.column) ≤ toLex (q.line, q.column))) := by
  obtain ⟨n, h, hfound, rfl⟩ := find?_eq_some_iff.1 hm
  have hat : (p.line, p.column) = locate content.lines p.name n h.start := of_mem_headParameters? hp
  cases hlist : h.value.hasList with
  | false =>
    -- a head without a list has no parameters
    have hnone : headParameters? content.lines n h = some [] := by rw [headParameters?, hlist]; rfl
    rw [ofHeadIn, hnone] at hp
    cases hp
  | true =>
    obtain ⟨first, hfirst, hparen, hbehind, hbracket⟩ := bracket_of_head file hfound hlist
    have hfeed : ∀ l ∈ content.lines, '\n' ∉ l := fun l hl => Text.newline_not_mem_of_mem_lines hl
    obtain ⟨ps, hps, hmem⟩ : ∃ ps, readList? content.lines n (h.stop - 1) h.start = some ps ∧ p ∈ ps := by
      rw [ofHeadIn, headParameters?, if_pos hlist] at hp
      cases hps : readList? content.lines n (h.stop - 1) h.start with
      | none => rw [hps] at hp; cases hp
      | some ps => rw [hps] at hp; exact ⟨ps, rfl, hp⟩
    obtain ⟨q, hfind, hname, hdefault⟩ := exists_declared hps hmem
    have hq := List.mem_of_find?_eq_some hfind
    have hsame : p = q ↔ locate content.lines p.name n h.start = (q.line, q.column) := by
      rw [← hat, Prod.mk.injEq]
      constructor
      · rintro rfl
        exact ⟨rfl, rfl⟩
      · rintro ⟨hline, hcolumn⟩
        cases p
        cases q
        simp_all
    refine ⟨first, q, hfirst, ?_, hname, hdefault, mentionsAt_declared hfeed hfirst hparen hq, fun hnear => ⟨?_, ?_⟩⟩
    · rw [declared, hbracket]
      exact hfind
    · rw [hsame, ← hname, hbracket]
      exact locate_eq_declared_iff hfeed hfirst hparen hbehind hq hnear
    · rw [hbracket, hat, ← hname]
      intro hvisible
      have hmention := (isMention_declared_iff hfeed hfirst hparen hq).2 hvisible
      have hfrom := le_of_lt (lt_declared hfeed hfirst hparen hbehind hq)
      have hleast := isLeast_locate hmention hfrom hnear
      exact ⟨hleast, hleast.2 ⟨hfrom, hmention⟩⟩

/-- A list over two lines; a longer name and a comment come before the parameter `$size`. -/
def paddedText : Text := "@mixin pad($size-lg: 2, // $size\n  $size: 1) \x7b\x7d".toList

/-- The mixin in it. -/
def padded : Mixin :=
  ⟨"pad".toList, ⟨.root, []⟩, 0, 0, 7, [⟨"size-lg".toList, some ['2'], 0, 11⟩, ⟨"size".toList, some ['1'], 1, 2⟩]⟩

theorem located_iff_first_mention_padded :
    find? paddedText "pad".toList ⟨.root, []⟩ = some padded ∧ ⟨"size".toList, some ['1'], 1, 2⟩ ∈ padded.parameters ∧
    (padded.declared paddedText.lines).find? (·.name == "size".toList) = some ⟨"size".toList, some ['1'], 1, 2⟩ ∧
    ∀ place, toLex (0, 0) ≤ toLex place → toLex place < toLex (1, 2) →
      ¬ IsMention paddedText.lines "size".toList place := by
  have hm : find? paddedText "pad".toList ⟨.root, []⟩ = some padded := by decide +kernel
  have hp : ⟨"size".toList, some ['1'], 1, 2⟩ ∈ padded.parameters := by decide +kernel
  have hdeclared : (padded.declared paddedText.lines).find? (·.name == "size".toList) =
      some ⟨"size".toList, some ['1'], 1, 2⟩ := by decide +kernel
  obtain ⟨first, q, -, hq, -, -, -, hiff⟩ := located_iff_first_mention hm hp
  obtain rfl := Option.some.inj (hdeclared.symm.trans hq)
  exact ⟨hm, hp, hdeclared, ((hiff (by decide)).1.1 rfl).2⟩

/-- A parameter need not be located where it is declared: in `@mixin card($pad: $gap, $gap: 2px)` the second one is
located in the default of the first. -/
theorem not_located_at_declaration :
    ¬ ∀ (content name : Text) (file : Path) (m : Mixin) (p q : Parameter), find? content name file = some m →
      p ∈ m.parameters → (m.declared content.lines).find? (·.name == p.name) = some q → q.line ≤ m.line + 10 →
        (p.line, p.column) = (q.line, q.column) := by
  intro hclaim
  have hplace := hclaim "@mixin card($pad: $gap, $gap: 2px) \x7b\x7d".toList "card".toList ⟨.root, []⟩
    ⟨"card".toList, ⟨.root, []⟩, 0, 0, 7,
      [⟨"pad".toList, some "$gap".toList, 0, 12⟩, ⟨"gap".toList, some "2px".toList, 0, 18⟩]⟩
    ⟨"gap".toList, some "2px".toList, 0, 18⟩ ⟨"gap".toList, some "2px".toList, 0, 24⟩
    (by decide +kernel) (by decide +kernel) (by decide +kernel) (by decide)
  exact absurd hplace (by decide)

end Mixin

end SassModules
