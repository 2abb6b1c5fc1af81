import SassModules.Json.Reader
import SassModules.Proofs.Lists
import SassModules.Proofs.Lookup

/-!
# The grammar of strings and numbers in JSON

What stands between the quotes of a string (`SpellsPoints`) and how a number is put together (`IsNumber`), as relations
between texts and what they spell, and that the readers of these parts take exactly the texts of the grammar. An escaped
unit stands for itself unless it makes a surrogate pair with the next one, so reading a string looks one escape ahead
(`SpellsPoints.stringBody`). A number is read as far as it goes (`IsNumber.numberLiteral`), so what follows it may not go
on with it (`Continues`).
-/

namespace SassModules.Json

/-! ## Strings -/

/-- The character is the digit of this value, in either case. -/
def IsHexDigit (c : Char) (d : Nat) : Prop := d < 16 ∧ (c = Nat.digitChar d ∨ c = (Nat.digitChar d).toUpper)

/-- The escape of a UTF-16 unit. -/
inductive SpellsUnit : Text → Nat → Prop
  | mk {a b c d : Char} {i j k l : Nat} (ha : IsHexDigit a i) (hb : IsHexDigit b j) (hc : IsHexDigit c k)
      (hd : IsHexDigit d l) : SpellsUnit ['\\', 'u', a, b, c, d] (4096 * i + 256 * j + 16 * k + l)

/-- The letters behind a backslash, with what each stands for. -/
def shortEscapes : List (Char × Char) :=
  [('"', '"'), ('\\', '\\'), ('/', '/'), ('b', '\x08'), ('f', '\x0c'), ('n', '\n'), ('r', '\r'), ('t', '\t')]

/-- What stands between quotes, and its code points. Two units that make a surrogate pair are one code point. -/
inductive SpellsPoints : Text → List Nat → Prop
  | nil : SpellsPoints [] []
  | plain {c : Char} {t : Text} {ps : List Nat} (hquote : c ≠ '"') (hslash : c ≠ '\\') (hcontrol : 32 ≤ c.toNat)
      (h : SpellsPoints t ps) : SpellsPoints (c :: t) (c.toNat :: ps)
  | short {c e : Char} {t : Text} {ps : List Nat} (hc : (c, e) ∈ shortEscapes) (h : SpellsPoints t ps) :
      SpellsPoints ('\\' :: c :: t) (e.toNat :: ps)
  | pair {u u' t : Text} {n m : Nat} {ps : List Nat} (hu : SpellsUnit u n) (hn : 0xD800 ≤ n ∧ n ≤ 0xDBFF)
      (hu' : SpellsUnit u' m) (hm : 0xDC00 ≤ m ∧ m ≤ 0xDFFF) (h : SpellsPoints t ps) :
      SpellsPoints (u ++ u' ++ t) ((0x10000 + 1024 * (n - 0xD800) + (m - 0xDC00)) :: ps)
  | unit {u t : Text} {n : Nat} {ps : List Nat} (hu : SpellsUnit u n)
      (halone : 0xD800 ≤ n ∧ n ≤ 0xDBFF → ∀ u' m t', SpellsUnit u' m → 0xDC00 ≤ m ∧ m ≤ 0xDFFF → t ≠ u' ++ t')
      (h : SpellsPoints t ps) : SpellsPoints (u ++ t) (n :: ps)

section Strings

variable {s t u rest : Text} {n : Nat} {ps : List Nat}

instance (c : Char) (d : Nat) : Decidable (IsHexDigit c d) := inferInstanceAs (Decidable (_ ∧ _))

theorem hexValue?_eq_some_iff {c : Char} {d : Nat} : Text.hexValue? c = some d ↔ IsHexDigit c d := by
  constructor
  · intro h
    have hascii : c.toNat < 128 := by
      unfold Text.hexValue? at h
      split_ifs at h with hdigit hlower hupper
      · exact Nat.lt_of_le_of_lt (Char.isDigit_iff_toNat.1 hdigit).2 (by decide)
      · exact Nat.lt_of_le_of_lt (UInt32.le_iff_toNat_le.1 hlower.2) (by decide)
      · exact Nat.lt_of_le_of_lt (UInt32.le_iff_toNat_le.1 hupper.2) (by decide)
    have hall : ∀ k < 128, ∀ d ∈ Text.hexValue? (Char.ofNat k), IsHexDigit (Char.ofNat k) d := by decide +kernel
    have hc := hall c.toNat hascii
    rw [Char.ofNat_toNat] at hc
    exact hc d h
  · rintro ⟨hd, h⟩
    have hlower : ∀ d < 16, Text.hexValue? (Nat.digitChar d) = some d := by decide
    have hupper : ∀ d < 16, Text.hexValue? (Nat.digitChar d).toUpper = some d := by decide
    rcases h with rfl | rfl
    · exact hlower d hd
    · exact hupper d hd

theorem hex4?_eq_some_iff : hex4? s = some (n, rest) ↔ ∃ u, SpellsUnit ('\\' :: 'u' :: u) n ∧ s = u ++ rest := by
  constructor
  · intro h
    unfold hex4? at h
    split at h
    · rename_i a b c d s
      simp only [Text.digitsValue?, List.foldlM_cons, List.foldlM_nil, Option.bind_eq_bind, Option.map_eq_some_iff,
        Option.bind_eq_some_iff, hexValue?_eq_some_iff] at h
      obtain ⟨v, ⟨_, ⟨i, ha, rfl⟩, _, ⟨j, hb, rfl⟩, _, ⟨k, hc, rfl⟩, _, ⟨l, hd, rfl⟩, hv⟩, heq⟩ := h
      obtain ⟨rfl, rfl⟩ := Prod.mk.inj heq
      refine ⟨[a, b, c, d], ?_, rfl⟩
      have hn : v = 4096 * i + 256 * j + 16 * k + l := by
        rw [← Option.some.inj hv]
        ring
      rw [hn]
      exact .mk ha hb hc hd
    · cases h
  · rintro ⟨u, hu, rfl⟩
    cases hu with
    | @mk a b c d i j k l ha hb hc hd =>
      simp only [List.cons_append, List.nil_append, hex4?, Text.digitsValue?, List.foldlM_cons, List.foldlM_nil,
        hexValue?_eq_some_iff.2 ha, hexValue?_eq_some_iff.2 hb, hexValue?_eq_some_iff.2 hc, hexValue?_eq_some_iff.2 hd,
        Option.bind_eq_bind, Option.map_some, Option.bind_some, Option.pure_def, Option.some.injEq, Prod.mk.injEq,
        and_true]
      ring

theorem SpellsUnit.exists_hex (h : SpellsUnit u n) : ∃ ds, u = '\\' :: 'u' :: ds ∧ ds.length = 4 ∧
    ∀ rest, hex4? (ds ++ rest) = some (n, rest) := by
  have hu := h
  cases h with
  | @mk a b c d => exact ⟨[a, b, c, d], rfl, rfl, fun rest => hex4?_eq_some_iff.2 ⟨_, hu, rfl⟩⟩

/-- No quote stands in the escape of a unit. -/
theorem SpellsUnit.not_mem (h : SpellsUnit u n) : '"' ∉ u := by
  have hquote : ∀ d, ¬ IsHexDigit '"' d := fun d hd => by
    have := hexValue?_eq_some_iff.2 hd
    cases this
  cases h with
  | mk ha hb hc hd =>
    simp only [List.mem_cons, List.not_mem_nil, or_false, not_or]
    refine ⟨by decide, by decide, ?_, ?_, ?_, ?_⟩ <;> rintro rfl
    · exact hquote _ ha
    · exact hquote _ hb
    · exact hquote _ hc
    · exact hquote _ hd

theorem shortEscape?_eq_some_iff {c e : Char} : shortEscape? c = some e ↔ (c, e) ∈ shortEscapes := by
  constructor
  · intro h
    unfold shortEscape? at h
    split at h <;> first | (cases h; decide) | cases h
  · intro h
    simp only [shortEscapes, List.mem_cons, Prod.mk.injEq, List.not_mem_nil, or_false] at h
    rcases h with ⟨rfl, rfl⟩ | ⟨rfl, rfl⟩ | ⟨rfl, rfl⟩ | ⟨rfl, rfl⟩ | ⟨rfl, rfl⟩ | ⟨rfl, rfl⟩ | ⟨rfl, rfl⟩ | ⟨rfl, rfl⟩
    all_goals rfl

/-- Characters that an escape has used are passed over. -/
theorem stringBody_eq_drop : ∀ (used : Nat) (s : Text), stringBody used s = stringBody 0 (s.drop used)
  | 0, _ => rfl
  | _ + 1, [] => by simp [stringBody]
  | used + 1, _ :: s => stringBody_eq_drop used s

/-- The second half of a surrogate pair, if it is escaped at the head of a text. -/
def lowUnit? (s : Text) : Option Nat := do
  let (m, _) ← hex4? (← Pattern.literal "\\u" s)
  guard (isLow m)
  some m

theorem isHigh_iff : isHigh n = true ↔ 0xD800 ≤ n ∧ n ≤ 0xDBFF := by simp [isHigh]

theorem isLow_iff : isLow n = true ↔ 0xDC00 ≤ n ∧ n ≤ 0xDFFF := by simp [isLow]

theorem lowUnit?_eq_some_iff {m : Nat} :
    lowUnit? s = some m ↔ (0xDC00 ≤ m ∧ m ≤ 0xDFFF) ∧ ∃ u rest, SpellsUnit u m ∧ s = u ++ rest := by
  unfold lowUnit?
  simp only [Option.bind_eq_bind, Option.bind_eq_some_iff, Pattern.literal_eq_some_iff, Prod.exists,
    Option.guard_eq_some', hex4?_eq_some_iff, Option.some.injEq, isLow_iff]
  constructor
  · rintro ⟨x, rfl, m', rest, ⟨u, hu, rfl⟩, _, hm, rfl⟩
    exact ⟨hm, _, rest, hu, rfl⟩
  · rintro ⟨hm, u, rest, hu, rfl⟩
    obtain ⟨ds, rfl, -, -⟩ := hu.exists_hex
    exact ⟨ds ++ rest, rfl, m, rest, ⟨ds, hu, rfl⟩, (), hm, rfl⟩

theorem stringBody_plain {c : Char} (hquote : c ≠ '"') (hslash : c ≠ '\\') (hc : 32 ≤ c.toNat) (s : Text) :
    stringBody 0 (c :: s) = (stringBody 0 s).map fun r => (c.toNat :: r.1, r.2) := by
  rw [stringBody.eq_def]
  simp [Nat.not_lt.2 hc]

theorem stringBody_short {c e : Char} (h : (c, e) ∈ shortEscapes) (s : Text) :
    stringBody 0 ('\\' :: c :: s) = (stringBody 0 s).map fun r => (e.toNat :: r.1, r.2) := by
  have h := shortEscape?_eq_some_iff.2 h
  have hc : c ≠ 'u' := by
    rintro rfl
    cases h
  rw [stringBody.eq_def]
  simp [h, stringBody]

/-- A unit is read with the next one, if they make a pair, and else alone. -/
theorem stringBody_unit (hu : SpellsUnit u n) (t : Text) : stringBody 0 (u ++ t) =
    ((lowUnit? t).filter fun _ => isHigh n).elim ((stringBody 0 t).map fun r => (n :: r.1, r.2)) fun m =>
      (stringBody 0 (t.drop 6)).map fun r => (pairPoint n m :: r.1, r.2) := by
  obtain ⟨ds, rfl, hlength, hhex⟩ := hu.exists_hex
  have hdrop₅ : stringBody 5 ('u' :: (ds ++ t)) = stringBody 0 t := by
    rw [stringBody_eq_drop, List.drop_succ_cons, ← hlength, List.drop_left]
  have hdrop₁₁ : stringBody 11 ('u' :: (ds ++ t)) = stringBody 0 (t.drop 6) := by
    rw [stringBody_eq_drop, List.drop_succ_cons, show 10 = ds.length + 6 by omega, ← List.drop_drop, List.drop_left]
  show stringBody 0 ('\\' :: 'u' :: (ds ++ t)) = _
  rw [stringBody.eq_def]
  have hlow : lowUnit? t = (Pattern.literal "\\u" t).bind fun t => (hex4? t).bind fun r =>
      Option.bind (guard (isLow r.1 = true)) fun _ => some r.1 := rfl
  simp only [hhex, Option.bind_eq_bind, Option.bind_some, hdrop₅, hdrop₁₁, ← hlow]
  cases isHigh n <;> cases lowUnit? t <;> rfl

/-- An escape at the head of what is left of a string lies before the closing quote. -/
theorem SpellsUnit.exists_of_append {m : Nat} {rest' : Text} (hu : SpellsUnit u m) (h : t ++ '"' :: rest = u ++ rest') :
    ∃ t', t = u ++ t' := by
  rcases List.append_eq_append_iff.1 h with ⟨u', rfl, hrest⟩ | ⟨t', rfl, -⟩
  · cases u' with
    | nil => exact ⟨[], by simp⟩
    | cons c u' =>
      obtain ⟨rfl, -⟩ := List.cons.inj hrest
      exact absurd (List.mem_append_right t List.mem_cons_self) hu.not_mem
  · exact ⟨t', rfl⟩

/-- What stands between quotes is read up to the closing one. -/
theorem SpellsPoints.stringBody (h : SpellsPoints t ps) (rest : Text) :
    stringBody 0 (t ++ '"' :: rest) = some (ps, rest) := by
  induction h with
  | nil => rfl
  | plain hquote hslash hcontrol _ ih =>
    rw [List.cons_append, stringBody_plain hquote hslash hcontrol, ih]
    rfl
  | short hc _ ih =>
    rw [List.cons_append, List.cons_append, stringBody_short hc, ih]
    rfl
  | @pair u u' t n m ps hu hn hu' hm _ ih =>
    have hlow : lowUnit? (u' ++ (t ++ '"' :: rest)) = some m := lowUnit?_eq_some_iff.2 ⟨hm, u', _, hu', rfl⟩
    obtain ⟨ds, rfl, hlength, -⟩ := hu'.exists_hex
    have hdrop : ('\\' :: 'u' :: ds ++ (t ++ '"' :: rest)).drop 6 = t ++ '"' :: rest := by
      rw [show 6 = ('\\' :: 'u' :: ds).length by simp [hlength], List.drop_left]
    rw [List.append_assoc, List.append_assoc, stringBody_unit hu, hlow, isHigh_iff.2 hn, hdrop, ih]
    rfl
  | @unit u t n ps hu halone _ ih =>
    have hnone : (lowUnit? (t ++ '"' :: rest)).filter (fun _ => isHigh n) = none := by
      rw [Option.filter_eq_none_iff]
      intro m hm hhigh
      obtain ⟨hlow, u', rest', hu', heq⟩ := lowUnit?_eq_some_iff.1 hm
      obtain ⟨t', ht'⟩ := hu'.exists_of_append heq
      exact halone (isHigh_iff.1 hhigh) u' m t' hu' hlow ht'
    rw [List.append_assoc, stringBody_unit hu, hnone, ih]
    rfl

/-- What is read as an escaped unit, alone or with the other half of a pair, is spelt so. -/
theorem exists_of_stringBody_unit (hu : SpellsUnit u n) (h : stringBody 0 (u ++ t) = some (ps, rest))
    (hrest : ∀ k ps, stringBody 0 (t.drop k) = some (ps, rest) →
      ∃ t', SpellsPoints t' ps ∧ t.drop k = t' ++ '"' :: rest) :
    ∃ t', SpellsPoints t' ps ∧ u ++ t = t' ++ '"' :: rest := by
  rw [stringBody_unit hu] at h
  cases hlow : (lowUnit? t).filter (fun _ => isHigh n) with
  | none =>
    rw [hlow, Option.elim_none] at h
    obtain ⟨⟨ps', rest'⟩, hr, heq⟩ := Option.map_eq_some_iff.1 h
    obtain ⟨rfl, rfl⟩ := Prod.mk.inj heq
    obtain ⟨t', ht', heq⟩ := hrest 0 ps' hr
    rw [List.drop_zero] at heq
    subst heq
    refine ⟨u ++ t', .unit hu (fun hhigh u' m t'' hu' hm heq => ?_) ht', by simp⟩
    have hsome : lowUnit? (t' ++ '"' :: rest') = some m :=
      lowUnit?_eq_some_iff.2 ⟨hm, u', t'' ++ '"' :: rest', hu', by rw [heq, List.append_assoc]⟩
    rw [hsome, isHigh_iff.2 hhigh] at hlow
    cases hlow
  | some m =>
    rw [hlow, Option.elim_some] at h
    obtain ⟨⟨ps', rest'⟩, hr, heq⟩ := Option.map_eq_some_iff.1 h
    obtain ⟨rfl, rfl⟩ := Prod.mk.inj heq
    obtain ⟨hm, hhigh⟩ := Option.filter_eq_some_iff.1 hlow
    obtain ⟨hmlow, u', t', hu', rfl⟩ := lowUnit?_eq_some_iff.1 hm
    obtain ⟨t'', ht'', heq⟩ := hrest 6 ps' hr
    obtain ⟨ds, rfl, hlength, -⟩ := hu'.exists_hex
    have hdrop : ('\\' :: 'u' :: ds ++ t').drop 6 = t' := by
      rw [show 6 = ('\\' :: 'u' :: ds).length by simp [hlength], List.drop_left]
    rw [hdrop] at heq
    subst heq
    exact ⟨_, .pair hu (isHigh_iff.1 hhigh) hu' hmlow ht'', by simp⟩

/-- What is read as a string stands between quotes. -/
theorem exists_of_stringBody : ∀ (length : Nat) (s : Text) (ps : List Nat) (rest : Text), s.length ≤ length →
    stringBody 0 s = some (ps, rest) → ∃ t, SpellsPoints t ps ∧ s = t ++ '"' :: rest
  | _, [], _, _, _, h => by simp [Json.stringBody] at h
  | length + 1, c :: s, ps, rest, hlength, h => by
    have hs : s.length ≤ length := Nat.le_of_succ_le_succ hlength
    by_cases hquote : c = '"'
    · subst hquote
      obtain ⟨rfl, rfl⟩ := Prod.mk.inj (Option.some.inj h)
      exact ⟨[], .nil, rfl⟩
    by_cases hslash : c = '\\'
    · subst hslash
      cases s with
      | nil => simp [Json.stringBody] at h
      | cons c s =>
        rw [List.length_cons] at hs
        by_cases hu : c = 'u'
        · subst hu
          cases hhex : hex4? s with
          | none =>
            rw [Json.stringBody.eq_def] at h
            simp [hhex] at h
          | some r =>
            obtain ⟨ds, hunit, rfl⟩ := hex4?_eq_some_iff.1 hhex
            rw [List.length_append] at hs
            refine exists_of_stringBody_unit hunit h fun k ps hk => exists_of_stringBody length _ ps rest ?_ hk
            rw [List.length_drop]
            omega
        · cases he : shortEscape? c with
          | none =>
            rw [Json.stringBody.eq_def] at h
            simp [he] at h
          | some e =>
            have hc := shortEscape?_eq_some_iff.1 he
            rw [stringBody_short hc] at h
            obtain ⟨⟨ps', rest'⟩, hr, heq⟩ := Option.map_eq_some_iff.1 h
            obtain ⟨rfl, rfl⟩ := Prod.mk.inj heq
            obtain ⟨t, ht, rfl⟩ := exists_of_stringBody length s ps' rest' (by omega) hr
            exact ⟨_, .short hc ht, rfl⟩
    · by_cases hcontrol : 32 ≤ c.toNat
      · rw [stringBody_plain hquote hslash hcontrol] at h
        obtain ⟨⟨ps', rest'⟩, hr, heq⟩ := Option.map_eq_some_iff.1 h
        obtain ⟨rfl, rfl⟩ := Prod.mk.inj heq
        obtain ⟨t, ht, rfl⟩ := exists_of_stringBody length s ps' rest' hs hr
        exact ⟨_, .plain hquote hslash hcontrol ht, rfl⟩
      · rw [Json.stringBody.eq_def] at h
        simp [Nat.not_le.1 hcontrol] at h

/-- The reader of strings takes the texts of the grammar, and no others. -/
theorem stringBody_eq_some_iff : stringBody 0 s = some (ps, rest) ↔ ∃ t, SpellsPoints t ps ∧ s = t ++ '"' :: rest := by
  constructor
  · exact exists_of_stringBody s.length s ps rest (Nat.le_refl _)
  · rintro ⟨t, ht, rfl⟩
    exact ht.stringBody rest

end Strings

/-! ## Numbers -/

/-- Digits, at least one. -/
def IsDigits (t : Text) : Prop := t ≠ [] ∧ ∀ c ∈ t, c.isDigit = true

/-- A whole number without a sign: no digit follows a leading zero. -/
def IsWhole (t : Text) : Prop := t = ['0'] ∨ IsDigits t ∧ t.head? ≠ some '0'

/-- A point and digits. -/
def IsFraction (t : Text) : Prop := ∃ ds, t = '.' :: ds ∧ IsDigits ds

/-- The mark of an exponent and its digits, with a sign or without one. -/
def IsExponent (t : Text) : Prop :=
  ∃ e sign ds, t = e :: (sign ++ ds) ∧ (e = 'e' ∨ e = 'E') ∧ (sign = [] ∨ sign = ['+'] ∨ sign = ['-']) ∧ IsDigits ds

/-- The parts of a number. -/
structure IsNumber (sign whole frac exp : Text) : Prop where
  sign : sign = [] ∨ sign = ['-']
  whole : IsWhole whole
  frac : frac = [] ∨ IsFraction frac
  exp : exp = [] ∨ IsExponent exp

/-- A text that a number in front of it would go on with. -/
def Continues (s : Text) : Prop :=
  ∃ part rest, s = part ++ rest ∧ (IsDigits part ∨ IsFraction part ∨ IsExponent part)

section Numbers

variable {s t rest sign whole frac exp : Text}

theorem digits1_eq_some_iff {ds : Text} :
    digits1 s = some (ds, rest) ↔ IsDigits ds ∧ ds ++ rest = s ∧ ∀ c ∈ rest.head?, c.isDigit = false := by
  rw [digits1, Pattern.run1_eq_some_iff, IsDigits, and_assoc]

theorem digits1_eq_none_iff : digits1 s = none ↔ ∀ c ∈ s.head?, c.isDigit = false := by
  cases s with
  | nil => simp [digits1, Pattern.run1]
  | cons c s => cases hc : c.isDigit <;> simp [digits1, Pattern.run1, hc]

/-- Digits at the head of a text are read. -/
theorem IsDigits.digits1_ne_none (h : IsDigits t) (rest : Text) : digits1 (t ++ rest) ≠ none := by
  obtain ⟨c, t, rfl⟩ := List.exists_cons_of_ne_nil h.1
  intro hnone
  have hc := digits1_eq_none_iff.1 hnone c rfl
  rw [h.2 c List.mem_cons_self] at hc
  cases hc

theorem isDigit_head_of_not_continues (h : ¬ Continues s) : ∀ c ∈ s.head?, c.isDigit = false := by
  intro c hc
  cases s with
  | nil => cases hc
  | cons c' s =>
    cases hc
    by_contra hdigit
    refine h ⟨[c], s, rfl, Or.inl ⟨List.cons_ne_nil _ _, ?_⟩⟩
    simpa using hdigit

theorem wholePart_append (h : IsWhole whole) (hrest : ∀ c ∈ rest.head?, c.isDigit = false) :
    wholePart (whole ++ rest) = some (whole, rest) := by
  rcases h with rfl | ⟨hdigits, hzero⟩
  · rfl
  · obtain ⟨c, whole, rfl⟩ := List.exists_cons_of_ne_nil hdigits.1
    have hc : c ≠ '0' := fun e => hzero (congrArg some e)
    have hread := digits1_eq_some_iff.2 ⟨hdigits, rfl, hrest⟩
    unfold wholePart
    split
    · rename_i heq
      exact absurd (List.cons.inj heq).1 hc
    · exact hread

theorem exists_of_wholePart (h : wholePart s = some (whole, rest)) :
    IsWhole whole ∧ whole ++ rest = s ∧ (whole ≠ ['0'] → ∀ c ∈ rest.head?, c.isDigit = false) := by
  unfold wholePart at h
  split at h
  · obtain ⟨rfl, rfl⟩ := Prod.mk.inj (Option.some.inj h)
    exact ⟨Or.inl rfl, rfl, fun hne => absurd rfl hne⟩
  · rename_i hzero
    obtain ⟨hdigits, happend, hrest⟩ := digits1_eq_some_iff.1 h
    refine ⟨Or.inr ⟨hdigits, fun hhead => ?_⟩, happend, fun _ => hrest⟩
    obtain ⟨ds, rfl⟩ := List.head?_eq_some_iff.1 hhead
    exact hzero (ds ++ rest) happend.symm

theorem fraction_append (h : IsFraction frac) (hrest : ∀ c ∈ rest.head?, c.isDigit = false) :
    fraction (frac ++ rest) = (frac, rest) := by
  obtain ⟨ds, rfl, hdigits⟩ := h
  have hread : digits1 (ds ++ rest) = some (ds, rest) := digits1_eq_some_iff.2 ⟨hdigits, rfl, hrest⟩
  simp only [fraction, List.cons_append, hread]

theorem exists_of_fraction (h : fraction s = (frac, rest)) :
    frac ++ rest = s ∧ (IsFraction frac ∨ frac = [] ∧ ∀ part tail, s = part ++ tail → ¬ IsFraction part) := by
  unfold fraction at h
  split at h
  · rename_i t
    cases ht : digits1 t with
    | some r =>
      rw [ht] at h
      obtain ⟨rfl, rfl⟩ := Prod.mk.inj h
      obtain ⟨hdigits, rfl, -⟩ := digits1_eq_some_iff.1 ht
      exact ⟨rfl, Or.inl ⟨_, rfl, hdigits⟩⟩
    | none =>
      rw [ht] at h
      obtain ⟨rfl, rfl⟩ := Prod.mk.inj h
      refine ⟨rfl, Or.inr ⟨rfl, ?_⟩⟩
      rintro part tail heq ⟨ds, rfl, hdigits⟩
      obtain rfl := (List.cons.inj heq).2
      exact hdigits.digits1_ne_none tail ht
  · rename_i hpoint
    obtain ⟨rfl, rfl⟩ := Prod.mk.inj h
    refine ⟨rfl, Or.inr ⟨rfl, ?_⟩⟩
    rintro part tail heq ⟨ds, rfl, -⟩
    exact hpoint (ds ++ tail) heq

theorem oneOf_append {signs : List Char} (h : sign = [] ∨ ∃ c ∈ signs, sign = [c])
    (hrest : ∀ c ∈ rest.head?, c ∉ signs) : oneOf signs (sign ++ rest) = (sign, rest) := by
  rcases h with rfl | ⟨c, hc, rfl⟩
  · cases rest with
    | nil => rfl
    | cons c rest => exact if_neg (hrest c rfl)
  · exact if_pos hc

theorem exists_of_oneOf {signs : List Char} (h : oneOf signs s = (sign, rest)) :
    sign ++ rest = s ∧ (sign = [] ∨ ∃ c ∈ signs, sign = [c]) := by
  unfold oneOf at h
  split at h
  · obtain ⟨rfl, rfl⟩ := Prod.mk.inj h
    exact ⟨rfl, Or.inl rfl⟩
  · split at h
    · obtain ⟨rfl, rfl⟩ := Prod.mk.inj h
      exact ⟨rfl, Or.inr ⟨_, ‹_›, rfl⟩⟩
    · obtain ⟨rfl, rfl⟩ := Prod.mk.inj h
      exact ⟨rfl, Or.inl rfl⟩

/-- No digit is a sign. -/
theorem IsDigits.head_not_mem (h : IsDigits t) (rest : Text) {signs : List Char} (hsigns : ∀ c ∈ signs, c.isDigit = false) :
    ∀ c ∈ (t ++ rest).head?, c ∉ signs := by
  obtain ⟨c, t, rfl⟩ := List.exists_cons_of_ne_nil h.1
  rintro c' hc hmem
  obtain rfl := Option.some.inj hc
  have hdigit := h.2 c List.mem_cons_self
  rw [hsigns c hmem] at hdigit
  cases hdigit

theorem oneOf_sign {ds : Text} (hsign : sign = [] ∨ sign = ['+'] ∨ sign = ['-']) (hdigits : IsDigits ds) :
    oneOf ['+', '-'] (sign ++ (ds ++ rest)) = (sign, ds ++ rest) :=
  oneOf_append (by simpa using hsign) (hdigits.head_not_mem rest (by simp))

theorem exponent_append (h : IsExponent exp) (hrest : ∀ c ∈ rest.head?, c.isDigit = false) :
    exponent (exp ++ rest) = (exp, rest) := by
  obtain ⟨e, sign, ds, rfl, he, hsign, hdigits⟩ := h
  have hread : digits1 (ds ++ rest) = some (ds, rest) := digits1_eq_some_iff.2 ⟨hdigits, rfl, hrest⟩
  rw [List.cons_append, List.append_assoc]
  simp only [exponent, if_pos he, oneOf_sign hsign hdigits, hread, List.cons_append]

theorem exists_of_exponent (h : exponent s = (exp, rest)) :
    exp ++ rest = s ∧ (IsExponent exp ∨ exp = [] ∧ ∀ part tail, s = part ++ tail → ¬ IsExponent part) := by
  cases s with
  | nil =>
    obtain ⟨rfl, rfl⟩ := Prod.mk.inj h
    refine ⟨rfl, Or.inr ⟨rfl, ?_⟩⟩
    rintro part tail heq ⟨e, sign, ds, rfl, -⟩
    cases heq
  | cons e t =>
    simp only [exponent] at h
    by_cases he : e = 'e' ∨ e = 'E'
    · rw [if_pos he] at h
      cases hread : digits1 (oneOf ['+', '-'] t).2 with
      | none =>
        simp only [hread] at h
        obtain ⟨rfl, rfl⟩ := Prod.mk.inj h
        refine ⟨rfl, Or.inr ⟨rfl, ?_⟩⟩
        rintro part tail heq ⟨e', sign, ds, rfl, -, hsign, hdigits⟩
        have ht : t = sign ++ (ds ++ tail) := by simpa using (List.cons.inj heq).2
        rw [ht, oneOf_sign hsign hdigits] at hread
        exact hdigits.digits1_ne_none tail hread
      | some r =>
        simp only [hread] at h
        obtain ⟨rfl, rfl⟩ := Prod.mk.inj h
        obtain ⟨happend, hsign⟩ := exists_of_oneOf (Prod.eta (oneOf ['+', '-'] t)).symm
        obtain ⟨hdigits, hds, -⟩ := digits1_eq_some_iff.1 hread
        refine ⟨?_, Or.inl ⟨e, _, r.1, rfl, he, by simpa using hsign, hdigits⟩⟩
        rw [List.cons_append, List.cons_append, List.append_assoc, hds, happend]
    · rw [if_neg he] at h
      obtain ⟨rfl, rfl⟩ := Prod.mk.inj h
      refine ⟨rfl, Or.inr ⟨rfl, ?_⟩⟩
      rintro part tail heq ⟨e', sign, ds, rfl, he', -⟩
      exact he ((List.cons.inj heq).1 ▸ he')

theorem fraction_eq_nil (h : ∀ part tail, s = part ++ tail → ¬ IsFraction part) : fraction s = ([], s) := by
  obtain ⟨happend, hfrac | ⟨hnil, -⟩⟩ := exists_of_fraction (Prod.eta (fraction s)).symm
  · exact absurd hfrac (h _ _ happend.symm)
  · rw [hnil] at happend
    exact Prod.ext hnil happend

theorem exponent_eq_nil (h : ∀ part tail, s = part ++ tail → ¬ IsExponent part) : exponent s = ([], s) := by
  obtain ⟨happend, hexp | ⟨hnil, -⟩⟩ := exists_of_exponent (Prod.eta (exponent s)).symm
  · exact absurd hexp (h _ _ happend.symm)
  · rw [hnil] at happend
    exact Prod.ext hnil happend

theorem head_not_digit_of_number (hfrac : frac = [] ∨ IsFraction frac) (hexp : exp = [] ∨ IsExponent exp)
    (hrest : ∀ c ∈ rest.head?, c.isDigit = false) : ∀ c ∈ (frac ++ (exp ++ rest)).head?, c.isDigit = false := by
  rcases hfrac with rfl | ⟨ds, rfl, -⟩
  · rcases hexp with rfl | ⟨e, sign, ds, rfl, he, -⟩
    · exact hrest
    · intro c hc
      obtain rfl := Option.some.inj hc
      rcases he with rfl | rfl <;> rfl
  · intro c hc
    obtain rfl := Option.some.inj hc
    rfl

/-- A number is read as far as it goes. -/
theorem IsNumber.numberLiteral (h : IsNumber sign whole frac exp) (hrest : ¬ Continues rest) :
    numberLiteral (sign ++ whole ++ frac ++ exp ++ rest) = some (sign ++ whole ++ frac ++ exp, rest) := by
  have hdigit := isDigit_head_of_not_continues hrest
  have hsign : oneOf ['-'] (sign ++ (whole ++ (frac ++ (exp ++ rest)))) = (sign, whole ++ (frac ++ (exp ++ rest))) := by
    refine oneOf_append (by simpa using h.sign) ?_
    rcases h.whole with rfl | ⟨hdigits, -⟩
    · simp
    · exact hdigits.head_not_mem _ (by simp)
  have hwhole := wholePart_append h.whole (head_not_digit_of_number h.frac h.exp hdigit)
  have hfrac : fraction (frac ++ (exp ++ rest)) = (frac, exp ++ rest) := by
    rcases h.frac with rfl | hfrac
    · refine fraction_eq_nil fun part tail heq hpart => ?_
      rcases h.exp with rfl | ⟨e, sign, ds, rfl, he, -⟩
      · exact hrest ⟨part, tail, heq, Or.inr (Or.inl hpart)⟩
      · obtain ⟨ds, rfl, -⟩ := hpart
        obtain rfl := (List.cons.inj heq).1
        rcases he with he | he <;> cases he
    · exact fraction_append hfrac (head_not_digit_of_number (Or.inl rfl) h.exp hdigit)
  have hexp : exponent (exp ++ rest) = (exp, rest) := by
    rcases h.exp with rfl | hexp
    · exact exponent_eq_nil fun part tail heq hpart => hrest ⟨part, tail, heq, Or.inr (Or.inr hpart)⟩
    · exact exponent_append hexp hdigit
  simp only [List.append_assoc]
  simp only [Json.numberLiteral, hsign, hwhole, Option.bind_eq_bind, Option.bind_some, hfrac, hexp, List.append_assoc]

/-- What is read as a number is one. When it has neither a fraction nor an exponent, it is read as far as it goes, unless
it is a zero. -/
theorem exists_of_numberLiteral {t : Text} (h : numberLiteral s = some (t, rest)) :
    ∃ sign whole frac exp, IsNumber sign whole frac exp ∧ t = sign ++ whole ++ frac ++ exp ∧ t ++ rest = s ∧
      (frac = [] → exp = [] → whole ≠ ['0'] → ¬ Continues rest) := by
  rcases hsign : oneOf ['-'] s with ⟨sign, t₀⟩
  simp only [numberLiteral, hsign] at h
  obtain ⟨⟨whole, t₁⟩, hwhole, h⟩ := Option.bind_eq_some_iff.1 h
  rcases hfrac : fraction t₁ with ⟨frac, t₂⟩
  rcases hexp : exponent t₂ with ⟨exp, t₃⟩
  simp only [hfrac, hexp] at h
  obtain ⟨rfl, rfl⟩ := Prod.mk.inj (Option.some.inj h)
  obtain ⟨rfl, issign⟩ := exists_of_oneOf hsign
  obtain ⟨iswhole, rfl, hdigit⟩ := exists_of_wholePart hwhole
  obtain ⟨rfl, isfrac⟩ := exists_of_fraction hfrac
  obtain ⟨rfl, isexp⟩ := exists_of_exponent hexp
  refine ⟨sign, whole, frac, exp, ⟨by simpa using issign, iswhole, isfrac.symm.imp_left And.left,
    isexp.symm.imp_left And.left⟩, rfl, by simp only [List.append_assoc], ?_⟩
  rintro rfl rfl hzero ⟨part, tail, rfl, hpart⟩
  rcases hpart with hpart | hpart | hpart
  · obtain ⟨c, part, rfl⟩ := List.exists_cons_of_ne_nil hpart.1
    have hc := hdigit hzero c rfl
    rw [hpart.2 c List.mem_cons_self] at hc
    cases hc
  · rcases isfrac with ⟨ds, hds, -⟩ | ⟨-, hnone⟩
    · cases hds
    · exact hnone part tail rfl hpart
  · rcases isexp with ⟨e, sign, ds, hds, -⟩ | ⟨-, hnone⟩
    · cases hds
    · exact hnone part tail rfl hpart

theorem IsWhole.isDigits (h : IsWhole whole) : IsDigits whole := by
  rcases h with rfl | ⟨h, -⟩
  · exact ⟨List.cons_ne_nil _ _, by simp⟩
  · exact h

/-- The digits that are counted are those of a whole number. -/
theorem IsNumber.wholeDigits (h : IsNumber sign whole frac exp) :
    wholeDigits (sign ++ whole ++ frac ++ exp) = if frac = [] ∧ exp = [] then whole else [] := by
  obtain ⟨c, ds, rfl⟩ := List.exists_cons_of_ne_nil h.whole.isDigits.1
  have hdigits := h.whole.isDigits.2
  have hc : (c == '-') = false := by
    refine beq_eq_false_iff_ne.2 fun e => ?_
    have hdigit := hdigits c List.mem_cons_self
    rw [e] at hdigit
    cases hdigit
  have hdrop : (sign ++ (c :: ds) ++ frac ++ exp).dropWhile (· == '-') = c :: ds ++ frac ++ exp := by
    rcases h.sign with rfl | rfl <;> simp [hc]
  rw [Json.wholeDigits, hdrop]
  by_cases hwhole : frac = [] ∧ exp = []
  · obtain ⟨rfl, rfl⟩ := hwhole
    rw [if_pos (And.intro rfl rfl), List.append_nil, List.append_nil]
    exact if_pos (List.all_eq_true.2 hdigits)
  · rw [if_neg hwhole]
    refine if_neg fun hall => hwhole ?_
    rw [List.all_append, List.all_append, Bool.and_eq_true, Bool.and_eq_true] at hall
    constructor
    · rcases h.frac with hfrac | ⟨ds, rfl, -⟩
      · exact hfrac
      · exact absurd hall.1.2 (by simp)
    · rcases h.exp with hexp | ⟨e, sign, ds, rfl, he, -⟩
      · exact hexp
      · rcases he with rfl | rfl <;> exact absurd hall.2 (by simp)

/-- Does a number have more digits than are read? -/
def IsLong (whole frac exp : Text) : Prop := frac = [] ∧ exp = [] ∧ Text.maxDigits < whole.length

theorem IsNumber.numeric (h : IsNumber sign whole frac exp) (hshort : ¬ IsLong whole frac exp) (hrest : ¬ Continues rest) :
    numeric (sign ++ whole ++ frac ++ exp ++ rest) = .ok (.number (sign ++ whole ++ frac ++ exp), rest) := by
  simp only [Json.numeric, h.numberLiteral hrest, h.wholeDigits]
  refine if_neg fun hlong => hshort ?_
  split at hlong
  · rename_i hwhole
    exact ⟨hwhole.1, hwhole.2, hlong⟩
  · cases hlong

theorem IsNumber.numeric_long (h : IsNumber sign whole [] []) (hlong : Text.maxDigits < whole.length)
    (hrest : ¬ Continues rest) : Json.numeric (sign ++ whole ++ rest) = .error (.tooManyDigits whole.length) := by
  have hread := h.numberLiteral hrest
  have hcount := h.wholeDigits
  rw [List.append_nil, List.append_nil] at hread hcount
  simp only [Json.numeric, hread, hcount]
  exact if_pos hlong

theorem exists_of_numeric {v : Json} (h : numeric s = .ok (v, rest)) :
    ∃ sign whole frac exp, IsNumber sign whole frac exp ∧ ¬ IsLong whole frac exp ∧
      v = .number (sign ++ whole ++ frac ++ exp) ∧ sign ++ whole ++ frac ++ exp ++ rest = s := by
  unfold numeric at h
  split at h
  · cases h
  · rename_i t rest' hread
    obtain ⟨sign, whole, frac, exp, hnumber, rfl, happend, -⟩ := exists_of_numberLiteral hread
    split at h
    · cases h
    · rename_i hshort
      obtain ⟨rfl, rfl⟩ := Prod.mk.inj (Except.ok.inj h)
      refine ⟨sign, whole, frac, exp, hnumber, fun hlong => hshort ?_, rfl, happend⟩
      rw [hnumber.wholeDigits, if_pos ⟨hlong.1, hlong.2.1⟩]
      exact hlong.2.2

theorem exists_of_numeric_eq_error {n : Nat} (h : numeric s = .error (.tooManyDigits n)) :
    ∃ sign whole rest, IsNumber sign whole [] [] ∧ whole.length = n ∧ Text.maxDigits < n ∧ ¬ Continues rest ∧
      s = sign ++ whole ++ rest := by
  unfold numeric at h
  split at h
  · cases h
  · rename_i t rest hread
    obtain ⟨sign, whole, frac, exp, hnumber, rfl, happend, hends⟩ := exists_of_numberLiteral hread
    split at h
    · rename_i hlong
      obtain rfl := Defect.tooManyDigits.inj (Except.error.inj h)
      rw [hnumber.wholeDigits] at hlong ⊢
      by_cases hwhole : frac = [] ∧ exp = []
      · rw [if_pos hwhole] at hlong ⊢
        obtain ⟨rfl, rfl⟩ := hwhole
        refine ⟨sign, whole, rest, hnumber, rfl, hlong, hends rfl rfl ?_, by simpa using happend.symm⟩
        rintro rfl
        exact absurd hlong (by decide)
      · rw [if_neg hwhole] at hlong
        cases hlong
    · cases h

end Numbers

end SassModules.Json
