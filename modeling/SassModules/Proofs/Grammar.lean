import SassModules.Proofs.Literals

/-!
# The grammar of JSON

`Spells t (.value v)`: the text `t` is the value `v`, without white space around it. `HasLong t n`: at the head of `t`,
possibly inside arrays and objects that are well formed up to there, stands a whole number whose `n` digits are more than
are read. The readers of white space, of values without parts and of names of fields take exactly the texts of the
grammar; arrays and objects are in `SassModules.Proofs.Reading`.
-/

namespace SassModules.Json

/-- The characters that may stand between the parts of a value. -/
def spaces : List Char := [' ', '\t', '\n', '\r']

/-- White space between the parts of a value. -/
def IsBlank (b : Text) : Prop := ∀ c ∈ b, c ∈ spaces

/-- The names that are values. -/
def words : List (Text × Json) :=
  [("null".toList, .null), ("true".toList, .bool true), ("false".toList, .bool false), ("NaN".toList, .number "NaN".toList),
   ("Infinity".toList, .number "Infinity".toList), ("-Infinity".toList, .number "-Infinity".toList)]

/-- A string in its quotes. -/
inductive SpellsString : Text → Json → Prop
  | text {t u : Text} (h : SpellsPoints t (u.map Char.toNat)) : SpellsString ('"' :: (t ++ ['"'])) (.string u)
  | unpaired {t : Text} {ps : List Nat} (h : SpellsPoints t ps) (halone : ∃ p ∈ ps, ¬ p.isValidChar) :
      SpellsString ('"' :: (t ++ ['"'])) (.unpaired ps)

/-- The name of a field with the colon behind it, and white space around both. -/
inductive SpellsName : Text → Json → Prop
  | mk {b t b' b'' : Text} {name : Json} (hb : IsBlank b) (h : SpellsString t name) (hb' : IsBlank b') (hb'' : IsBlank b'') :
      SpellsName (b ++ (t ++ (b' ++ ':' :: b''))) name

/-- What the texts of the grammar spell: a value, the items of an array or the fields of an object. -/
inductive Part where
  | value (v : Json)
  | items (vs : List Json)
  | fields (fs : List (Text × Json))

/-- The text spells the part. Items and fields are at least one; a field whose name is no text is left out. -/
inductive Spells : Text → Part → Prop
  | word {t : Text} {v : Json} (h : (t, v) ∈ words) : Spells t (.value v)
  | number {sign whole frac exp : Text} (h : IsNumber sign whole frac exp) (hshort : ¬ IsLong whole frac exp) :
      Spells (sign ++ whole ++ frac ++ exp) (.value (.number (sign ++ whole ++ frac ++ exp)))
  | string {t : Text} {v : Json} (h : SpellsString t v) : Spells t (.value v)
  | emptyArray {b : Text} (hb : IsBlank b) : Spells ('[' :: (b ++ [']'])) (.value (.array []))
  | array {t : Text} {vs : List Json} (h : Spells t (.items vs)) : Spells ('[' :: (t ++ [']'])) (.value (.array vs))
  | emptyObject {b : Text} (hb : IsBlank b) : Spells ('{' :: (b ++ ['}'])) (.value (.object []))
  | object {t : Text} {fs : List (Text × Json)} (h : Spells t (.fields fs)) :
      Spells ('{' :: (t ++ ['}'])) (.value (.object fs))
  | item {b t b' : Text} {v : Json} (hb : IsBlank b) (h : Spells t (.value v)) (hb' : IsBlank b') :
      Spells (b ++ (t ++ b')) (.items [v])
  | cons {b t b' u : Text} {v : Json} {vs : List Json} (hb : IsBlank b) (h : Spells t (.value v)) (hb' : IsBlank b')
      (hs : Spells u (.items vs)) : Spells (b ++ (t ++ (b' ++ ',' :: u))) (.items (v :: vs))
  | field {k t b : Text} {name v : Json} (hk : SpellsName k name) (h : Spells t (.value v)) (hb : IsBlank b) :
      Spells (k ++ (t ++ b)) (.fields (name.text?.map (·, v)).toList)
  | consField {k t b u : Text} {name v : Json} {fs : List (Text × Json)} (hk : SpellsName k name) (h : Spells t (.value v))
      (hb : IsBlank b) (hs : Spells u (.fields fs)) :
      Spells (k ++ (t ++ (b ++ ',' :: u))) (.fields ((name.text?.map (·, v)).toList ++ fs))

/-- A text after which the next item of an array or the value of its next field comes. -/
inductive Opens : Text → Prop
  | array {b : Text} (hb : IsBlank b) : Opens ('[' :: b)
  | item {u b : Text} {vs : List Json} (hs : Spells u (.items vs)) (hb : IsBlank b) : Opens ('[' :: (u ++ ',' :: b))
  | object {k : Text} {name : Json} (hk : SpellsName k name) : Opens ('{' :: k)
  | field {u k : Text} {fs : List (Text × Json)} {name : Json} (hs : Spells u (.fields fs)) (hk : SpellsName k name) :
      Opens ('{' :: (u ++ ',' :: k))

/-- At the head of the text or inside what is opened there, the first whole number with too many digits has `n`. -/
inductive HasLong : Text → Nat → Prop
  | here {sign whole rest : Text} (h : IsNumber sign whole [] []) (hlong : Text.maxDigits < whole.length)
      (hrest : ¬ Continues rest) : HasLong (sign ++ whole ++ rest) whole.length
  | inside {p t : Text} {n : Nat} (hp : Opens p) (h : HasLong t n) : HasLong (p ++ t) n

section Parts

variable {s t u b k rest : Text} {v name : Json} {n depth : Nat}

/-! ## White space -/

theorem IsBlank.nil : IsBlank [] := by simp [IsBlank]

theorem IsBlank.append (hb : IsBlank b) (ht : IsBlank t) : IsBlank (b ++ t) := by
  intro c hc
  exact (List.mem_append.1 hc).elim (hb c) (ht c)

theorem skipBlanks_append (hb : IsBlank b) (hs : ∀ c ∈ s.head?, c ∉ spaces) : skipBlanks (b ++ s) = s := by
  induction b with
  | nil =>
    cases s with
    | nil => rfl
    | cons c s =>
      have hc := hs c rfl
      simp only [spaces, List.mem_cons, List.not_mem_nil, or_false, not_or] at hc
      simp [skipBlanks, hc]
  | cons c b ih =>
    have hc := hb c List.mem_cons_self
    simp only [spaces, List.mem_cons, List.not_mem_nil, or_false] at hc
    have hskip : skipBlanks (c :: b ++ s) = skipBlanks (b ++ s) := by
      rcases hc with rfl | rfl | rfl | rfl <;> simp [skipBlanks]
    rw [hskip, ih fun c hc => hb c (List.mem_cons_of_mem _ hc)]

theorem exists_skipBlanks (s : Text) : ∃ b, IsBlank b ∧ b ++ skipBlanks s = s := by
  refine ⟨s.takeWhile _, fun c hc => ?_, List.takeWhile_append_dropWhile⟩
  have hblank := List.mem_takeWhile_imp hc
  simpa [spaces, or_assoc] using hblank

/-- No number goes on with what is not a digit, a point or the mark of an exponent. -/
theorem not_continues_cons {c : Char} (hc : c ∈ spaces ++ [',', ']', '}']) : ¬ Continues (c :: s) := by
  simp only [spaces, List.cons_append, List.nil_append] at hc
  rintro ⟨part, rest, heq, hdigits | ⟨ds, rfl, -⟩ | ⟨e, sign, ds, rfl, he, -⟩⟩
  · obtain ⟨d, part, rfl⟩ := List.exists_cons_of_ne_nil hdigits.1
    obtain rfl := (List.cons.inj heq).1
    have hdigit := hdigits.2 c List.mem_cons_self
    revert hdigit
    simp only [List.mem_cons, List.not_mem_nil, or_false] at hc
    rcases hc with rfl | rfl | rfl | rfl | rfl | rfl | rfl <;> simp
  · obtain rfl := (List.cons.inj heq).1
    revert hc
    simp
  · obtain rfl := (List.cons.inj heq).1
    revert hc
    rcases he with rfl | rfl <;> simp

theorem IsBlank.not_continues (hb : IsBlank b) {c : Char} (hc : c ∈ [',', ']', '}']) : ¬ Continues (b ++ c :: s) := by
  cases b with
  | nil => exact not_continues_cons (List.mem_append_right _ hc)
  | cons c' b => exact not_continues_cons (List.mem_append_left _ (hb c' List.mem_cons_self))

theorem IsBlank.not_continues_nil (hb : IsBlank b) : ¬ Continues b := by
  cases b with
  | nil =>
    rintro ⟨part, rest, heq, hpart⟩
    obtain ⟨rfl, -⟩ := List.append_eq_nil_iff.1 heq.symm
    rcases hpart with h | ⟨ds, h, -⟩ | ⟨e, sign, ds, h, -⟩
    · exact h.1 rfl
    · cases h
    · cases h
  | cons c' b => exact not_continues_cons (List.mem_append_left _ (hb c' List.mem_cons_self))

/-! ## Values without parts -/

theorem ofPoints_toNat (u : Text) : ofPoints (u.map Char.toNat) = .string u := by
  have hvalid : (u.map Char.toNat).all (fun n => decide n.isValidChar) = true := by
    simp only [List.all_map, List.all_eq_true, Function.comp_apply, decide_eq_true_eq]
    exact fun c _ => c.valid
  rw [ofPoints, if_pos hvalid, List.map_map]
  exact congrArg Json.string ((List.map_congr_left fun c _ => Char.ofNat_toNat c).trans (List.map_id u))

theorem spellsString_iff : SpellsString s v ↔ ∃ t ps, SpellsPoints t ps ∧ s = '"' :: (t ++ ['"']) ∧ v = ofPoints ps := by
  constructor
  · rintro (h | ⟨h, halone⟩)
    · exact ⟨_, _, h, rfl, (ofPoints_toNat _).symm⟩
    · refine ⟨_, _, h, rfl, (if_neg fun hall => ?_).symm⟩
      obtain ⟨p, hp, hinvalid⟩ := halone
      exact hinvalid (of_decide_eq_true (List.all_eq_true.1 hall p hp))
  · rintro ⟨t, ps, h, rfl, rfl⟩
    unfold ofPoints
    split
    · rename_i hall
      have hps : (ps.map Char.ofNat).map Char.toNat = ps := by
        rw [List.map_map]
        refine (List.map_congr_left fun p hp => ?_).trans (List.map_id ps)
        exact (Char.toNat_ofNat p).trans (if_pos (of_decide_eq_true (List.all_eq_true.1 hall p hp)))
      exact .text (hps.symm ▸ h)
    · rename_i hall
      refine .unpaired h ?_
      by_contra hvalid
      push Not at hvalid
      exact hall (List.all_eq_true.2 fun p hp => decide_eq_true (hvalid p hp))

theorem SpellsString.scalar (h : SpellsString t v) (rest : Text) : scalar (t ++ rest) = .ok (v, rest) := by
  obtain ⟨t, ps, hps, rfl, rfl⟩ := spellsString_iff.1 h
  have hread : stringBody 0 (t ++ '"' :: rest) = some (ps, rest) := hps.stringBody rest
  simp [Json.scalar, hread]

theorem scalar_of_mem_words (h : (t, v) ∈ words) (rest : Text) : scalar (t ++ rest) = .ok (v, rest) := by
  simp only [words, List.mem_cons, List.not_mem_nil, or_false, Prod.mk.injEq] at h
  rcases h with ⟨rfl, rfl⟩ | ⟨rfl, rfl⟩ | ⟨rfl, rfl⟩ | ⟨rfl, rfl⟩ | ⟨rfl, rfl⟩ | ⟨rfl, rfl⟩ <;> rfl

/-- What starts like a number is no string and no name. -/
theorem scalar_eq_numeric {sign : Text} {c : Char} (hsign : sign = [] ∨ sign = ['-']) (hc : c.isDigit = true) (s : Text) :
    scalar (sign ++ c :: s) = numeric (sign ++ c :: s) := by
  have hne : ∀ d : Char, d.isDigit = false → d ≠ c := by
    rintro d hd rfl
    rw [hc] at hd
    cases hd
  have hnone : (constants.findSome? fun w => (Pattern.literal w.1 (sign ++ c :: s)).map fun rest => (w.2, rest)) = none := by
    rcases hsign with rfl | rfl <;> simp [constants, Pattern.literal, List.isPrefixOf?, hne]
  have hquote : ∀ t, sign ++ c :: s ≠ '"' :: t := by
    rcases hsign with rfl | rfl
    · exact fun t heq => hne '"' rfl (List.cons.inj heq).1.symm
    · exact fun t heq => absurd (List.cons.inj heq).1 (by decide)
  unfold scalar
  split
  · exact absurd ‹_› (hquote _)
  · simp only [hnone]

/-- A text that is a whole number, or starts with one, starts with a sign and a digit. -/
theorem IsNumber.exists_cons {sign whole frac exp : Text} (h : IsNumber sign whole frac exp) :
    ∃ c ds, c.isDigit = true ∧ whole = c :: ds := by
  obtain ⟨c, ds, rfl⟩ := List.exists_cons_of_ne_nil h.whole.isDigits.1
  exact ⟨c, ds, h.whole.isDigits.2 c List.mem_cons_self, rfl⟩

theorem IsNumber.scalar {sign whole frac exp : Text} (h : IsNumber sign whole frac exp) (hshort : ¬ IsLong whole frac exp)
    (hrest : ¬ Continues rest) : scalar (sign ++ whole ++ frac ++ exp ++ rest) =
      .ok (.number (sign ++ whole ++ frac ++ exp), rest) := by
  rw [← h.numeric hshort hrest]
  obtain ⟨c, ds, hc, rfl⟩ := h.exists_cons
  simpa using scalar_eq_numeric h.sign hc (ds ++ (frac ++ (exp ++ rest)))

theorem IsNumber.scalar_long {sign whole : Text} (h : IsNumber sign whole [] []) (hlong : Text.maxDigits < whole.length)
    (hrest : ¬ Continues rest) : Json.scalar (sign ++ whole ++ rest) = .error (.tooManyDigits whole.length) := by
  rw [← h.numeric_long hlong hrest]
  obtain ⟨c, ds, hc, rfl⟩ := h.exists_cons
  simpa using scalar_eq_numeric h.sign hc (ds ++ rest)

theorem exists_of_scalar (h : scalar s = .ok (v, rest)) : ∃ t, Spells t (.value v) ∧ s = t ++ rest := by
  unfold scalar at h
  split at h
  · split at h
    · rename_i points rest' hread
      obtain ⟨rfl, rfl⟩ := Prod.mk.inj (Except.ok.inj h)
      obtain ⟨t, ht, rfl⟩ := stringBody_eq_some_iff.1 hread
      exact ⟨'"' :: (t ++ ['"']), .string (spellsString_iff.2 ⟨t, points, ht, rfl, rfl⟩), by simp⟩
    · cases h
  · split at h
    · rename_i r hfind
      obtain rfl := Except.ok.inj h
      obtain ⟨c, hc, hread⟩ := List.exists_of_findSome?_eq_some hfind
      obtain ⟨rest', hliteral, hpair⟩ := Option.map_eq_some_iff.1 hread
      obtain ⟨rfl, rfl⟩ := Prod.mk.inj hpair
      refine ⟨c.1.toList, .word ?_, (Pattern.literal_eq_some_iff.1 hliteral).symm⟩
      exact List.mem_map_of_mem (f := fun c : String × Json => (c.1.toList, c.2)) hc
    · obtain ⟨sign, whole, frac, exp, hnumber, hshort, rfl, rfl⟩ := exists_of_numeric h
      exact ⟨_, .number hnumber hshort, rfl⟩

theorem hasLong_of_scalar (h : scalar s = .error (.tooManyDigits n)) : HasLong s n := by
  unfold scalar at h
  split at h
  · split at h <;> cases h
  · split at h
    · cases h
    · obtain ⟨sign, whole, rest, hnumber, rfl, hlong, hrest, rfl⟩ := exists_of_numeric_eq_error h
      exact .here hnumber hlong hrest

/-! ## Names of fields -/

/-- The text starts with neither white space nor a closing bracket. -/
def StartsPart (s : Text) : Prop := ∃ c u, s = c :: u ∧ c ∉ spaces ∧ c ≠ ']' ∧ c ≠ '}'

theorem StartsPart.skipBlanks (hs : StartsPart s) (hb : IsBlank b) : skipBlanks (b ++ s) = s := by
  obtain ⟨c, u, rfl, hc, -⟩ := hs
  refine skipBlanks_append hb fun c' hc' => ?_
  obtain rfl := Option.some.inj hc'
  exact hc

theorem skipBlanks_cons {c : Char} (hb : IsBlank b) (hc : c ∉ spaces) : skipBlanks (b ++ c :: s) = c :: s := by
  refine skipBlanks_append hb fun c' hc' => ?_
  obtain rfl := Option.some.inj hc'
  exact hc

theorem StartsPart.append (hs : StartsPart s) (t : Text) : StartsPart (s ++ t) := by
  obtain ⟨c, u, rfl, hc⟩ := hs
  exact ⟨c, u ++ t, rfl, hc⟩

theorem SpellsString.startsPart (h : SpellsString t v) : StartsPart t := by
  obtain ⟨t, ps, -, rfl, -⟩ := spellsString_iff.1 h
  exact ⟨'"', _, rfl, by decide, by decide, by decide⟩

/-- The white space in front of a name is skipped, and the name is read. -/
theorem SpellsName.read (hk : SpellsName k name) (hs : StartsPart s) :
    StartsPart (skipBlanks (k ++ s)) ∧ fieldName (skipBlanks (k ++ s)) = some (name.text?, s) := by
  obtain ⟨hb, h, hb', hb''⟩ := hk
  rename_i b t b' b''
  have hskip : skipBlanks (b ++ (t ++ (b' ++ ':' :: b'')) ++ s) = t ++ (b' ++ ':' :: (b'' ++ s)) := by
    have hstart := (h.startsPart.append (b' ++ ':' :: (b'' ++ s))).skipBlanks hb
    simpa using hstart
  rw [hskip]
  refine ⟨h.startsPart.append _, ?_⟩
  obtain ⟨t, ps, hps, rfl, rfl⟩ := spellsString_iff.1 h
  have hquote : Pattern.literal "\"" ('"' :: (t ++ ['"']) ++ (b' ++ ':' :: (b'' ++ s))) =
      some (t ++ '"' :: (b' ++ ':' :: (b'' ++ s))) := Pattern.literal_eq_some_iff.2 (by simp)
  have hcolon : Pattern.literal ":" (Json.skipBlanks (b' ++ ':' :: (b'' ++ s))) = some (b'' ++ s) := by
    rw [skipBlanks_cons hb' (by decide)]
    exact Pattern.literal_eq_some_iff.2 rfl
  simp only [fieldName, hquote, Option.bind_eq_bind, Option.bind_some, hps.stringBody, hcolon, hs.skipBlanks hb'']

theorem exists_of_fieldName {x : Option Text} (h : fieldName s = some (x, rest)) :
    ∃ k name, SpellsName k name ∧ x = name.text? ∧ s = k ++ rest := by
  obtain ⟨t₀, hquote, h⟩ := Option.bind_eq_some_iff.1 h
  obtain ⟨⟨ps, t₁⟩, hbody, h⟩ := Option.bind_eq_some_iff.1 h
  obtain ⟨t₂, hcolon, h⟩ := Option.bind_eq_some_iff.1 h
  obtain ⟨rfl, rfl⟩ := Prod.mk.inj (Option.some.inj h)
  obtain ⟨t, ht, rfl⟩ := stringBody_eq_some_iff.1 hbody
  obtain ⟨b', hb', ht₁⟩ := exists_skipBlanks t₁
  obtain ⟨b'', hb'', ht₂⟩ := exists_skipBlanks t₂
  have hname : SpellsString ('"' :: (t ++ ['"'])) (ofPoints ps) := spellsString_iff.2 ⟨t, ps, ht, rfl, rfl⟩
  refine ⟨_, _, .mk .nil hname hb' hb'', rfl, ?_⟩
  calc s = '"' :: (t ++ '"' :: t₁) := (Pattern.literal_eq_some_iff.1 hquote).symm
    _ = '"' :: (t ++ '"' :: (b' ++ Json.skipBlanks t₁)) := by rw [ht₁]
    _ = '"' :: (t ++ '"' :: (b' ++ ':' :: t₂)) := by rw [← Pattern.literal_eq_some_iff.1 hcolon]; rfl
    _ = '"' :: (t ++ '"' :: (b' ++ ':' :: (b'' ++ Json.skipBlanks t₂))) := by rw [ht₂]
    _ = _ := by simp

end Parts

end SassModules.Json
