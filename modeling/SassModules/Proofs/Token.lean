import SassModules.Proofs.Lookup

/-!
# What a cursor touches

The token that a cursor touches is the maximal run of token characters around it, whichever of its characters the cursor
is at (`Reference.tokenAround_append`). A cursor on an argument touches a `$name` that no token character precedes
(`Argument.at?_place`), so the token there begins with a sigil, and no reference does: a cursor is never on an argument
and on a reference at once (`Reference.at?_of_argument`).
-/

namespace SassModules

/-! ## Tokens -/

namespace Reference

/-- Inside a run of token characters that begins there, the token is the run, continued as far as it goes. -/
theorem tokenAround_append {front word rest : Text} {j : Nat} (hfront : ∀ c ∈ front.getLast?, isTokenChar c = false)
    (hword : ∀ c ∈ word, isTokenChar c = true) (hj : j ≤ word.length) :
    tokenAround (front ++ (word ++ rest)) (front.length + j) =
      (word.take j, word.drop j ++ rest.takeWhile isTokenChar) := by
  have htake : (front ++ (word ++ rest)).take (front.length + j) = front ++ word.take j := by
    rw [List.take_length_add_append, List.take_append_of_le_length hj]
  have hdrop : (front ++ (word ++ rest)).drop (front.length + j) = word.drop j ++ rest := by
    rw [List.drop_length_add_append, List.drop_append_of_le_length hj]
  have hbefore : ∀ c ∈ (word.take j).reverse, isTokenChar c = true :=
    fun c hc => hword c (List.mem_of_mem_take (List.mem_reverse.1 hc))
  have hbehind : ∀ c ∈ word.drop j, isTokenChar c = true := fun c hc => hword c (List.mem_of_mem_drop hc)
  have hstop : front.reverse.takeWhile isTokenChar = [] := by
    cases hrev : front.reverse with
    | nil => rfl
    | cons c cs =>
      have hlast : front.getLast? = some c := by rw [← List.head?_reverse, hrev]; rfl
      rw [List.takeWhile_cons_of_neg (by rw [hfront c hlast]; exact Bool.false_ne_true)]
  unfold tokenAround
  rw [htake, hdrop, List.reverse_append, List.takeWhile_append_of_pos hbefore, hstop, List.append_nil,
    List.reverse_reverse, List.takeWhile_append_of_pos hbehind]

/-- A token that begins with a sigil is no reference. -/
theorem split?_sigil (t : Text) : split? ('$' :: t) = none := by
  have hrun : Pattern.run (· != '.') ('$' :: t) = ('$' :: t.takeWhile (· != '.'), t.dropWhile (· != '.')) := rfl
  have hname : ∀ n, isName ('$' :: n) = false := by
    intro n
    have hsigil : Text.isNameChar '$' = false := by decide
    simp [isName, hsigil]
  unfold split?
  rw [hrun]
  cases t.dropWhile (· != '.') with
  | nil => rfl
  | cons c member => simp [hname]

theorem isTokenChar_of_isNameChar {c : Char} (h : Text.isNameChar c = true) : isTokenChar c = true := by
  simp [isTokenChar, h]

/-- The member of a reference is a name, with or without a sigil. -/
theorem isMemberName_of_at? {line : Text} {character : Int} {r : Reference} (h : at? line character = some r) :
    isMemberName r.member = true := by
  simp only [at?, Option.bind_eq_bind, Option.bind_eq_some_iff, Prod.exists, Option.some.injEq] at h
  obtain ⟨-, -, aliasName, member, hsplit, rfl⟩ := h
  unfold split? at hsplit
  split at hsplit
  · rename_i heq
    split at hsplit
    · rename_i hnames
      obtain ⟨rfl, rfl⟩ := Prod.mk.inj (Option.some.inj hsplit)
      exact (Bool.and_eq_true_iff.1 hnames).2
    · cases hsplit
  · cases hsplit

end Reference

/-! ## Arguments -/

namespace Pattern

/-- The head of a call: the keyword, white space, alias and mixin with a dot between, white space and a parenthesis. -/
theorem includeCall_eq_some {s rest aliasName mixin : Text} (h : includeCall s = some ((aliasName, mixin), rest)) :
    ∃ b b', b ≠ [] ∧ (∀ c ∈ b, Text.isBlank c = true) ∧ Reference.isName aliasName = true ∧
      Reference.isName mixin = true ∧ (∀ c ∈ b', Text.isBlank c = true) ∧
      "@include".toList ++ (b ++ (aliasName ++ '.' :: (mixin ++ b'))) ++ '(' :: rest = s := by
  simp only [includeCall, Option.bind_eq_bind, Option.bind_eq_some_iff, Prod.exists, Option.some.injEq,
    Prod.mk.injEq] at h
  obtain ⟨t, ht, u, hu, aliasName', v, hv, x, hx, mixin', y, hy, rest', hrest, ⟨rfl, rfl⟩, rfl⟩ := h
  obtain ⟨b, hb, hblank, rfl, -⟩ := blanks1_eq_some_iff.1 hu
  obtain ⟨halias, rfl, -⟩ := word_eq_some_iff.1 hv
  obtain ⟨hmixin, rfl, -⟩ := word_eq_some_iff.1 hy
  obtain ⟨b', hblank', happend⟩ := exists_blanks_append y
  rw [← literal_eq_some_iff.1 hrest] at happend
  rw [← literal_eq_some_iff.1 hx, ← happend] at ht
  refine ⟨b, b', hb, hblank, halias, hmixin, hblank', ?_⟩
  rw [← literal_eq_some_iff.1 ht]
  simp

theorem dollarName_eq_some {s n rest : Text} (h : dollarName s = some (n, rest)) :
    Reference.isName n = true ∧ '$' :: n ++ rest = s := by
  simp only [dollarName, Option.bind_eq_bind, Option.bind_eq_some_iff] at h
  obtain ⟨t, ht, hword⟩ := h
  obtain ⟨hname, rfl, -⟩ := word_eq_some_iff.1 hword
  exact ⟨hname, literal_eq_some_iff.1 ht⟩

end Pattern

namespace Argument

/-- A call that is found opens its list at the last column that it spans. -/
theorem drop_opening {line : Text} {call : Hit (Text × Text)} (h : call ∈ Pattern.includeCall.hits line) :
    ∃ rest, line.drop (call.stop - 1) = '(' :: rest := by
  obtain ⟨rest, hcall, hlength⟩ := Pattern.exists_of_mem_hits h
  obtain ⟨b, b', -, -, -, -, -, hs⟩ := Pattern.includeCall_eq_some hcall
  generalize "@include".toList ++ (b ++ (call.value.1 ++ '.' :: (call.value.2 ++ b'))) = head at hs
  have hstop : call.stop - 1 = call.start + head.length := by
    rw [Hit.stop, hlength, ← hs]
    simp only [List.length_append, List.length_cons]
    omega
  refine ⟨rest, ?_⟩
  rw [hstop, ← List.drop_drop, ← hs, List.drop_left]

/-- An argument name in a list is a name behind a sigil, with no token character of the list in front of it. -/
theorem namesIn_place {arguments : Text} {h : Hit Text} (hm : h ∈ namesIn arguments) :
    Reference.isName h.value = true ∧ h.length = h.value.length + 1 ∧
      (∃ rest, arguments.drop h.start = '$' :: h.value ++ rest) ∧
      (h.start = 0 ∨ (arguments[h.start - 1]?).any Reference.isTokenChar = false) := by
  obtain ⟨hhit, hfree⟩ := List.mem_filter.1 hm
  obtain ⟨rest, hname, hlength⟩ := Pattern.exists_of_mem_hits hhit
  obtain ⟨hvalue, hs⟩ := Pattern.dollarName_eq_some hname
  refine ⟨hvalue, ?_, ⟨rest, hs.symm⟩, ?_⟩
  · rw [hlength, ← hs]
    simp only [List.length_append, List.length_cons]
    omega
  · simpa using hfree

/-- A cursor on an argument touches its name, and no token character stands in front of the sigil. -/
theorem at?_place {line : Text} {character : Int} {a : Argument} (h : at? line character = some a) :
    ∃ front rest, ∃ j ≤ a.name.length + 1, line = front ++ ('$' :: a.name ++ rest) ∧
      character = (front.length + j : Nat) ∧ Reference.isName a.name = true ∧
      ∀ c ∈ front.getLast?, Reference.isTokenChar c = false := by
  obtain ⟨call, hcall, h⟩ := List.exists_of_findSome?_eq_some h
  obtain ⟨tail, hopening⟩ := drop_opening hcall
  simp only [Option.bind_eq_bind, Option.bind_eq_some_iff, Option.some.injEq] at h
  obtain ⟨closing, -, ⟨⟩, hguard, hit, hhit, rfl⟩ := h
  have hinside : ((call.stop - 1 : Nat) : Int) < character ∧ character < closing := by simpa [guard] using hguard
  have htouched : hit.start ≤ character.toNat - (call.stop - 1) - 1 ∧
      character.toNat - (call.stop - 1) - 1 ≤ hit.stop := by simpa using List.find?_some hhit
  obtain ⟨hname, hlength, ⟨rest, hrest⟩, hfree⟩ := namesIn_place (List.mem_of_find?_eq_some hhit)
  generalize call.stop - 1 = opening at *
  generalize closing - opening - 1 = width at *
  have htail : line.drop (opening + 1) = tail := by rw [← List.tail_drop, hopening]; rfl
  rw [htail] at hrest hfree
  have hlist : tail = (tail.take width).take hit.start ++ ('$' :: hit.value ++ (rest ++ tail.drop width)) := by
    rw [← List.append_assoc ('$' :: hit.value), ← hrest, ← List.append_assoc, List.take_append_drop,
      List.take_append_drop]
  have hopen : opening < line.length := List.length_lt_of_drop_ne_nil (by rw [hopening]; exact List.cons_ne_nil _ _)
  have hstart : hit.start < (tail.take width).length :=
    List.length_lt_of_drop_ne_nil (by rw [hrest]; exact List.cons_ne_nil _ _)
  refine ⟨line.take opening ++ '(' :: (tail.take width).take hit.start, rest ++ tail.drop width,
    character.toNat - opening - 1 - hit.start, ?_, ?_, ?_, hname, fun c hc => ?_⟩
  · show character.toNat - opening - 1 - hit.start ≤ hit.value.length + 1
    rw [Hit.stop] at htouched
    omega
  · rw [List.append_assoc, List.cons_append, ← hlist, ← hopening, List.take_append_drop]
  · rw [List.length_append, List.length_cons, List.length_take_of_le (Nat.le_of_lt hopen),
      List.length_take_of_le (Nat.le_of_lt hstart)]
    omega
  · -- in front of the sigil stands the parenthesis or a character of the list
    rcases Nat.eq_zero_or_pos hit.start with hzero | hpos
    · rw [hzero, List.take_zero, List.getLast?_concat] at hc
      obtain rfl := Option.some.inj hc
      decide
    · have hget : (tail.take width)[hit.start - 1]? = some c := by
        have hlt : hit.start - 1 < (tail.take width).length := by omega
        rw [List.getLast?_append, List.getLast?_cons, List.getLast?_take, if_neg (by omega),
          List.getElem?_eq_getElem hlt] at hc
        rw [List.getElem?_eq_getElem hlt]
        exact hc
      have hany := hfree.resolve_left (Nat.ne_of_gt hpos)
      rw [hget] at hany
      exact hany

end Argument

/-- A cursor on an argument is on no reference. -/
theorem Reference.at?_of_argument {line : Text} {character : Int} {a : Argument}
    (h : Argument.at? line character = some a) : Reference.at? line character = none := by
  obtain ⟨front, rest, j, hj, rfl, rfl, hname, hfront⟩ := Argument.at?_place h
  have hword : ∀ c ∈ '$' :: a.name, isTokenChar c = true := by
    intro c hc
    rcases List.mem_cons.1 hc with rfl | hc
    · decide
    · exact isTokenChar_of_isNameChar ((Pattern.isName_iff.1 hname).2 c hc)
  have htoken : tokenAround (front ++ ('$' :: a.name ++ rest)) (front.length + j) = _ :=
    tokenAround_append hfront hword hj
  have hsplit : split? (('$' :: a.name).take j ++ (('$' :: a.name).drop j ++ rest.takeWhile isTokenChar)) = none := by
    rw [← List.append_assoc, List.take_append_drop]
    exact split?_sigil _
  unfold at?
  simp only [Int.toNat_natCast, htoken, hsplit]
  exact Option.bind_eq_none_iff.2 fun _ _ => rfl

end SassModules
