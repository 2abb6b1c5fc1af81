import SassModules.Proofs.Token

/-!
# The token that a cursor touches

A run of token characters is maximal when the characters around it are none (`IsTokenRun`). What stands around a column
is such a run (`exists_of_tokenAround`), and cutting it at its first dot gives the only alias and member that it can be
made of (`split?_eq_some_iff`). So a reference under a cursor is one that is written in the line as a maximal run
(`IsWritten`), and the cursor decides about its target only (`at?_eq_some_iff`): wherever in the token the cursor is, the
reference is the same (`at?_spans_token`).
-/

namespace SassModules

namespace Text

variable {text front token rest : Text} {start stop : Nat}

/-- The characters of a text from one column up to another. -/
def between (text : Text) (start stop : Nat) : Text := (text.take stop).drop start

/-- A text is what stands before two columns, between them and behind them. -/
theorem take_append_between (hstart : start ≤ stop) :
    text.take start ++ (text.between start stop ++ text.drop stop) = text := by
  have htake : text.take start = (text.take stop).take start := by rw [List.take_take, Nat.min_eq_left hstart]
  rw [htake, ← List.append_assoc, between, List.take_append_drop, List.take_append_drop]

theorem between_append : (front ++ (token ++ rest)).between front.length (front.length + token.length) = token := by
  rw [between, List.take_length_add_append, List.take_left, List.drop_left]

end Text

namespace Reference

variable {line front token rest aliasName member : Text} {start stop column : Nat} {character : Int} {r : Reference}

/-! ## Maximal runs -/

/-- Between the columns stand token characters only, and none stands directly before or behind them. -/
structure IsTokenRun (line : Text) (start stop : Nat) : Prop where
  start_le : start ≤ stop
  stop_le : stop ≤ line.length
  inside : ∀ c ∈ line.between start stop, isTokenChar c = true
  before : ∀ c ∈ (line.take start).getLast?, isTokenChar c = false
  behind : ∀ c ∈ (line.drop stop).head?, isTokenChar c = false

/-- Token characters between others make a maximal run. -/
theorem isTokenRun_append (hfront : ∀ c ∈ front.getLast?, isTokenChar c = false)
    (htoken : ∀ c ∈ token, isTokenChar c = true) (hrest : ∀ c ∈ rest.head?, isTokenChar c = false) :
    IsTokenRun (front ++ (token ++ rest)) front.length (front.length + token.length) where
  start_le := Nat.le_add_right _ _
  stop_le := by simp only [List.length_append]; omega
  inside := by rwa [Text.between_append]
  before := by rwa [List.take_left]
  behind := by rwa [List.drop_length_add_append, List.drop_left]

theorem takeWhile_eq_nil (hrest : ∀ c ∈ rest.head?, isTokenChar c = false) : rest.takeWhile isTokenChar = [] := by
  cases rest with
  | nil => rfl
  | cons c rest => simp [hrest c rfl]

/-- The token around a column, with what stands before and behind it in the line. -/
theorem exists_of_tokenAround {before behind : Text} (hcolumn : column ≤ line.length)
    (h : tokenAround line column = (before, behind)) :
    ∃ front rest, line = front ++ (before ++ behind ++ rest) ∧ column = front.length + before.length ∧
      (∀ c ∈ before ++ behind, isTokenChar c = true) ∧ (∀ c ∈ front.getLast?, isTokenChar c = false) ∧
      ∀ c ∈ rest.head?, isTokenChar c = false := by
  obtain ⟨rfl, rfl⟩ := Prod.mk.inj h
  obtain ⟨hleft, hin, hout⟩ := Pattern.run_spec (rfl : Pattern.run isTokenChar (line.take column).reverse = _)
  obtain ⟨hright, hin', hout'⟩ := Pattern.run_spec (rfl : Pattern.run isTokenChar (line.drop column) = _)
  generalize (line.take column).reverse.takeWhile isTokenChar = left at *
  generalize (line.take column).reverse.dropWhile isTokenChar = front at *
  generalize (line.drop column).takeWhile isTokenChar = right at *
  have htake : front.reverse ++ left.reverse = line.take column := by
    rw [← List.reverse_append, hleft, List.reverse_reverse]
  refine ⟨front.reverse, (line.drop column).dropWhile isTokenChar, ?_, ?_, ?_, ?_, hout'⟩
  · rw [List.append_assoc, hright, ← List.append_assoc, htake, List.take_append_drop]
  · rw [← List.length_append, htake, List.length_take, Nat.min_eq_left hcolumn]
  · intro c hc
    rcases List.mem_append.1 hc with hc | hc
    · exact hin c (List.mem_reverse.1 hc)
    · exact hin' c hc
  · rwa [List.getLast?_reverse]

/-! ## Alias and member -/

theorem isTokenChar_of_mem_name {n : Text} (hn : isName n = true) : ∀ c ∈ n, isTokenChar c = true :=
  fun c hc => isTokenChar_of_isNameChar ((Pattern.isName_iff.1 hn).2 c hc)

theorem isTokenChar_of_mem_member (hm : isMemberName member = true) : ∀ c ∈ member, isTokenChar c = true := by
  intro c hc
  rw [← Name.sigil_append_bare member] at hc
  rcases List.mem_append.1 hc with hc | hc
  · rcases Name.sigil_eq_nil_or member with h | h
    · rw [h] at hc
      cases hc
    · rw [h, List.mem_singleton] at hc
      rw [hc]
      decide
  · rw [Name.isMemberName_eq] at hm
    exact isTokenChar_of_mem_name hm c hc

/-- An alias, a dot and a member are token characters. -/
theorem isTokenChar_of_mem_text (ha : isName aliasName = true) (hm : isMemberName member = true) :
    ∀ c ∈ aliasName ++ '.' :: member, isTokenChar c = true := by
  intro c hc
  rcases List.mem_append.1 hc with hc | hc
  · exact isTokenChar_of_mem_name ha c hc
  · rcases List.mem_cons.1 hc with rfl | hc
    · decide
    · exact isTokenChar_of_mem_member hm c hc

/-- A token is cut into an alias and a member in one way. -/
theorem split?_eq_some_iff : split? token = some (aliasName, member) ↔
    token = aliasName ++ '.' :: member ∧ isName aliasName = true ∧ isMemberName member = true := by
  constructor
  · intro h
    unfold split? at h
    split at h
    · rename_i a c m hrun
      obtain ⟨happend, -, hdot⟩ := Pattern.run_spec hrun
      split at h
      · rename_i hnames
        obtain ⟨rfl, rfl⟩ := Prod.mk.inj (Option.some.inj h)
        obtain rfl : c = '.' := by simpa using hdot c rfl
        obtain ⟨ha, hm⟩ := Bool.and_eq_true_iff.1 hnames
        exact ⟨happend.symm, ha, hm⟩
      · cases h
    · cases h
  · rintro ⟨rfl, ha, hm⟩
    have hrun : Pattern.run (· != '.') (aliasName ++ '.' :: member) = (aliasName, '.' :: member) := by
      apply Pattern.run_append
      · intro c hc
        have hne : c ≠ '.' := fun e => Pattern.not_mem_of_isName ha (c := '.') (by decide) (e ▸ hc)
        simpa using hne
      · simp
    unfold split?
    rw [hrun]
    simp [ha, hm]

/-! ## References in a line -/

/-- The half of a reference that a column is on: the alias up to and with the dot. -/
def targetAt (r : Reference) (character : Int) : Target :=
  if character - r.start ≤ r.aliasName.length then .namespacePart else .memberPart

/-- The reference is written in the line, as a maximal run of token characters. -/
structure IsWritten (line : Text) (r : Reference) : Prop where
  run : IsTokenRun line r.start r.stop
  text_eq : line.between r.start r.stop = r.text
  isName_alias : isName r.aliasName = true
  isName_member : isMemberName r.member = true

/-- What a cursor on a token of a line finds: the alias and the member that the token splits into. -/
theorem at?_append {j : Nat} (hfront : ∀ c ∈ front.getLast?, isTokenChar c = false)
    (htoken : ∀ c ∈ token, isTokenChar c = true) (hrest : ∀ c ∈ rest.head?, isTokenChar c = false)
    (hsplit : split? token = some (aliasName, member)) (hj : j ≤ token.length) :
    at? (front ++ (token ++ rest)) (front.length + j : Nat) = some ⟨aliasName, member,
      if j ≤ aliasName.length then .namespacePart else .memberPart, front.length, front.length + token.length⟩ := by
  have haround : tokenAround (front ++ (token ++ rest)) (front.length + j) = (token.take j, token.drop j) := by
    rw [tokenAround_append hfront htoken hj, takeWhile_eq_nil hrest, List.append_nil]
  have hguard : guard (0 ≤ ((front.length + j : Nat) : Int) &&
      ((front.length + j : Nat) : Int) ≤ (front ++ (token ++ rest)).length) = some () := by
    simp only [List.length_append, guard]
    rw [if_pos (by simp; omega)]
    rfl
  unfold at?
  rw [hguard]
  simp only [Option.bind_eq_bind, Option.bind_some, Int.toNat_natCast, haround, List.take_append_drop, hsplit,
    List.length_take, Nat.min_eq_left hj, List.length_drop, Option.some.injEq, mk.injEq, true_and]
  omega

/-- A cursor on a reference stands in the line. -/
theorem range_of_at? (h : at? line character = some r) : 0 ≤ character ∧ character ≤ line.length := by
  obtain ⟨⟨⟩, hguard, -⟩ := Option.bind_eq_some_iff.1 h
  simpa [guard] using hguard

/-- A cursor on a reference is in a maximal run that splits into its alias and its member. -/
theorem exists_of_at? (h : at? line character = some r) : ∃ front token rest, ∃ j ≤ token.length,
    line = front ++ (token ++ rest) ∧ character = (front.length + j : Nat) ∧
      (∀ c ∈ front.getLast?, isTokenChar c = false) ∧ (∀ c ∈ token, isTokenChar c = true) ∧
      (∀ c ∈ rest.head?, isTokenChar c = false) ∧ split? token = some (r.aliasName, r.member) := by
  obtain ⟨hfrom, hto⟩ := range_of_at? h
  obtain ⟨column, rfl⟩ := Int.eq_ofNat_of_zero_le hfrom
  rcases haround : tokenAround line column with ⟨before, behind⟩
  simp only [at?, Int.toNat_natCast, haround, Option.bind_eq_bind, Option.bind_eq_some_iff, Prod.exists,
    Option.some.injEq] at h
  obtain ⟨-, -, aliasName, member, hsplit, rfl⟩ := h
  obtain ⟨front, rest, hline, hcolumn, htoken, hfront, hrest⟩ := exists_of_tokenAround (by omega) haround
  refine ⟨front, before ++ behind, rest, before.length, ?_, hline, ?_, hfront, htoken, hrest, hsplit⟩
  · simp
  · rw [hcolumn]

/-- A cursor is on a reference exactly when the reference is written around it. -/
theorem at?_eq_some_iff : at? line character = some r ↔
    r.IsWritten line ∧ r.start ≤ character ∧ character ≤ r.stop ∧ r.target = r.targetAt character := by
  obtain ⟨a, m, t, start, stop⟩ := r
  constructor
  · intro h
    obtain ⟨front, token, rest, j, hj, rfl, rfl, hfront, htoken, hrest, hsplit⟩ := exists_of_at? h
    dsimp only at hsplit
    obtain ⟨htext, halias, hmember⟩ := split?_eq_some_iff.1 hsplit
    rw [at?_append hfront htoken hrest hsplit hj] at h
    obtain ⟨-, -, rfl, rfl, rfl⟩ := mk.inj (Option.some.inj h)
    refine ⟨⟨isTokenRun_append hfront htoken hrest, Text.between_append.trans htext, halias, hmember⟩, ?_, ?_, ?_⟩
    · show (front.length : Int) ≤ (front.length + j : Nat)
      omega
    · show ((front.length + j : Nat) : Int) ≤ (front.length + token.length : Nat)
      omega
    · have hshift : ((front.length + j : Nat) : Int) - front.length ≤ a.length ↔ j ≤ a.length := by omega
      simp only [targetAt, hshift]
  · rintro ⟨⟨hrun, htext, halias, hmember⟩, hfrom, hto, htarget⟩
    dsimp only at hrun htext halias hmember hfrom hto htarget
    -- the line is cut at both ends of the run, and the cursor counted from its start
    obtain ⟨column, rfl⟩ := Int.eq_ofNat_of_zero_le (Int.le_trans (Int.natCast_nonneg _) hfrom)
    obtain ⟨j, rfl⟩ := Nat.exists_eq_add_of_le (Int.ofNat_le.1 hfrom)
    have hstart : (line.take start).length = start := by
      rw [List.length_take, Nat.min_eq_left (Nat.le_trans hrun.start_le hrun.stop_le)]
    have hlength : start + (line.between start stop).length = stop := by
      rw [Text.between, List.length_drop, List.length_take, Nat.min_eq_left hrun.stop_le]
      have := hrun.start_le
      omega
    have hat := at?_append hrun.before hrun.inside hrun.behind (j := j)
      (split?_eq_some_iff.2 ⟨htext, halias, hmember⟩) (by omega)
    rw [Text.take_append_between hrun.start_le, hstart, hlength] at hat
    have hshift : ((start + j : Nat) : Int) - start ≤ a.length ↔ j ≤ a.length := by omega
    rw [targetAt] at htarget
    simp only [hshift] at htarget
    rw [htarget]
    exact hat

/-- Behind the dot of a reference, the cursor is on its member. -/
theorem at?_behind_dot {c : Int} (h : at? line character = some r) (hdot : r.start + r.aliasName.length < c)
    (hc : c ≤ r.stop) : at? line c = some { r with target := .memberPart } := by
  obtain ⟨hr, -⟩ := at?_eq_some_iff.1 h
  refine at?_eq_some_iff.2 ⟨⟨hr.run, hr.text_eq, hr.isName_alias, hr.isName_member⟩, ?_, hc, ?_⟩
  · show (r.start : Int) ≤ c
    omega
  · show Target.memberPart = if c - r.start ≤ r.aliasName.length then .namespacePart else .memberPart
    rw [if_neg (by omega)]

/-- **A reference is a maximal token, wherever in it the cursor is.** A reference that a cursor is on spans a maximal run
of token characters around the cursor, which is its alias, a dot and its member; its target is the alias exactly when the
cursor is not behind the dot; and every cursor on the run finds the same alias and member between the same columns. The
other way round, every maximal run that is an alias, a dot and a member is found from each of its columns. -/
theorem at?_spans_token (line : Text) :
    (∀ (character : Int) (r : Reference), at? line character = some r →
      r.start ≤ character ∧ character ≤ r.stop ∧ line.between r.start r.stop = r.aliasName ++ '.' :: r.member ∧
      IsTokenRun line r.start r.stop ∧ isName r.aliasName = true ∧ isMemberName r.member = true ∧
      (r.target = .namespacePart ↔ character - r.start ≤ r.aliasName.length) ∧
      ∀ character' : Int, r.start ≤ character' → character' ≤ r.stop →
        ∃ target, at? line character' = some { r with target := target }) ∧
    ∀ (start stop : Nat) (aliasName member : Text), IsTokenRun line start stop →
      line.between start stop = aliasName ++ '.' :: member → isName aliasName = true → isMemberName member = true →
      ∀ character : Int, start ≤ character → character ≤ stop →
        ∃ target, at? line character = some ⟨aliasName, member, target, start, stop⟩ := by
  have hfound : ∀ r : Reference, r.IsWritten line → ∀ character : Int, r.start ≤ character → character ≤ r.stop →
      ∃ target, at? line character = some { r with target := target } := by
    intro r hr character hfrom hto
    refine ⟨r.targetAt character, at?_eq_some_iff.2 ⟨?_, hfrom, hto, rfl⟩⟩
    exact ⟨hr.run, hr.text_eq, hr.isName_alias, hr.isName_member⟩
  constructor
  · intro character r h
    obtain ⟨hr, hfrom, hto, htarget⟩ := at?_eq_some_iff.1 h
    refine ⟨hfrom, hto, hr.text_eq, hr.run, hr.isName_alias, hr.isName_member, ?_, hfound r hr⟩
    rw [htarget, targetAt]
    split <;> simp [*]
  · intro start stop aliasName member hrun htext halias hmember
    exact hfound ⟨aliasName, member, .memberPart, start, stop⟩ ⟨hrun, htext, halias, hmember⟩

/-- A line with a token that begins with a dot, a reference, and a token with two sigils. -/
def sampleLine : Text := ".a.b:grid.$gap-1,x.$$y".toList

/-- From the column behind its last character the reference is found whole, and so from its first column. -/
theorem at?_spans_token_sample :
    (at? sampleLine 16 = some ⟨"grid".toList, "$gap-1".toList, .memberPart, 5, 16⟩ ∧ IsTokenRun sampleLine 5 16 ∧
      ∃ target, at? sampleLine 5 = some ⟨"grid".toList, "$gap-1".toList, target, 5, 16⟩) ∧
    sampleLine.between 5 16 = "grid".toList ++ '.' :: "$gap-1".toList ∧ isName "grid".toList = true ∧
    isMemberName "$gap-1".toList = true ∧
    ∃ target, at? sampleLine 9 = some ⟨"grid".toList, "$gap-1".toList, target, 5, 16⟩ := by
  have hat : at? sampleLine 16 = some ⟨"grid".toList, "$gap-1".toList, .memberPart, 5, 16⟩ := by decide +kernel
  obtain ⟨-, -, htext, hrun, halias, hmember, -, hcursor⟩ := (at?_spans_token sampleLine).1 16 _ hat
  refine ⟨⟨hat, hrun, hcursor 5 (by decide) (by decide)⟩, htext, halias, hmember, ?_⟩
  exact (at?_spans_token sampleLine).2 5 16 _ _ hrun htext halias hmember 9 (by decide) (by decide)

end Reference

end SassModules
