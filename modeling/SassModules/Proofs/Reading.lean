import SassModules.Proofs.Grammar

/-!
# Reading JSON

A text is read as a value exactly when it spells it (`read_eq_ok_iff`), and is refused for a number of `n` digits exactly
when such a number comes before anything that is malformed (`read_eq_tooManyDigits_iff`); every other text is malformed.
The readers take every text of the grammar and fail at a long number in it, by induction on the derivation
(`Spells.readAs`, `HasLong.value_eq`). They take nothing else, by induction on the bound of the nesting (`Sound`).
-/

namespace SassModules.Json

section Readers

variable {s t u b k rest : Text} {v name : Json} {n depth : Nat}

/-! ## What the readers do to the texts of the grammar -/

theorem IsNumber.startsPart {sign whole frac exp : Text} (h : IsNumber sign whole frac exp) (s : Text) :
    StartsPart (sign ++ whole ++ s) := by
  obtain ⟨c, ds, hc, rfl⟩ := h.exists_cons
  rcases h.sign with rfl | rfl
  · have hne : ∀ d : Char, d.isDigit = false → c ≠ d := by
      rintro d hd rfl
      rw [hc] at hd
      cases hd
    exact ⟨c, ds ++ s, rfl, by simp [spaces, hne], hne ']' rfl, hne '}' rfl⟩
  · exact ⟨'-', c :: ds ++ s, rfl, by decide, by decide, by decide⟩

/-- No value starts with white space or a closing bracket. -/
theorem Spells.startsPart (h : Spells t (.value v)) : StartsPart t := by
  cases h with
  | word h =>
    simp only [words, List.mem_cons, List.not_mem_nil, or_false, Prod.mk.injEq] at h
    rcases h with ⟨rfl, -⟩ | ⟨rfl, -⟩ | ⟨rfl, -⟩ | ⟨rfl, -⟩ | ⟨rfl, -⟩ | ⟨rfl, -⟩ <;>
      exact ⟨_, _, rfl, by decide, by decide, by decide⟩
  | number h => simpa using h.startsPart _
  | string h => exact h.startsPart
  | emptyArray => exact ⟨'[', _, rfl, by decide, by decide, by decide⟩
  | array => exact ⟨'[', _, rfl, by decide, by decide, by decide⟩
  | emptyObject => exact ⟨'{', _, rfl, by decide, by decide, by decide⟩
  | object => exact ⟨'{', _, rfl, by decide, by decide, by decide⟩

theorem Opens.startsPart {p : Text} (h : Opens p) : StartsPart p := by
  cases h <;> exact ⟨_, _, rfl, by decide, by decide, by decide⟩

theorem HasLong.startsPart (h : HasLong t n) : StartsPart t := by
  cases h with
  | here h => exact h.startsPart _
  | inside hp => exact hp.startsPart.append _

theorem StartsPart.value_array (hs : StartsPart (Json.skipBlanks s)) :
    value (depth + 1) ('[' :: s) = (items depth (Json.skipBlanks s)).map fun r => (.array r.1, r.2) := by
  rw [value]
  split
  · rename_i heq
    obtain ⟨c, u, hcu, -, hc, -⟩ := hs
    exact absurd (List.cons.inj (hcu.symm.trans heq)).1 hc
  · rfl

theorem StartsPart.value_object (hs : StartsPart (Json.skipBlanks s)) :
    value (depth + 1) ('{' :: s) = (fields depth (Json.skipBlanks s)).map fun r => (.object r.1, r.2) := by
  rw [value]
  split
  · rename_i heq
    obtain ⟨c, u, hcu, -, -, hc⟩ := hs
    exact absurd (List.cons.inj (hcu.symm.trans heq)).1 hc
  · rfl

/-- No value without parts starts with a bracket. -/
theorem value_scalar (hs : scalar s ≠ .error .malformed) : value (depth + 1) s = scalar s := by
  rw [value]
  · rintro u rfl
    exact hs rfl
  · rintro u rfl
    exact hs rfl

theorem items_error {e : Defect} (hv : value depth s = .error e) : items (depth + 1) s = .error e := by
  rw [items, hv]
  rfl

theorem items_close (hv : value depth s = .ok (v, t)) (ht : skipBlanks t = ']' :: rest) :
    items (depth + 1) s = .ok ([v], rest) := by
  simp [items, hv, ok_bind, ht]

theorem items_comma (hv : value depth s = .ok (v, t)) (ht : skipBlanks t = ',' :: rest) :
    items (depth + 1) s = (items depth (skipBlanks rest)).map fun r => (v :: r.1, r.2) := by
  simp [items, hv, ok_bind, ht]

theorem fields_error {e : Defect} {x : Option Text} (hk : fieldName s = some (x, t)) (hv : value depth t = .error e) :
    fields (depth + 1) s = .error e := by
  simp only [fields, hk, hv]
  rfl

theorem fields_close {x : Option Text} (hk : fieldName s = some (x, t)) (hv : value depth t = .ok (v, u))
    (hu : skipBlanks u = '}' :: rest) : fields (depth + 1) s = .ok (consField x v [], rest) := by
  simp [fields, hk, hv, ok_bind, hu]

theorem fields_comma {x : Option Text} (hk : fieldName s = some (x, t)) (hv : value depth t = .ok (v, u))
    (hu : skipBlanks u = ',' :: rest) :
    fields (depth + 1) s = (fields depth (skipBlanks rest)).map fun r => (consField x v r.1, r.2) := by
  simp [fields, hk, hv, ok_bind, hu]

/-- The reader takes the text and leaves what follows: a value as long as a number in it does not go on, items and fields
with the bracket that closes them. The bound is what the reader needs. -/
def ReadAs (t : Text) : Part → Prop
  | .value v => ∀ depth rest, 2 * t.length < depth → ¬ Continues rest → value depth (t ++ rest) = .ok (v, rest)
  | .items vs => ∀ depth rest, 2 * t.length + 1 < depth →
      StartsPart (skipBlanks (t ++ ']' :: rest)) ∧ items depth (skipBlanks (t ++ ']' :: rest)) = .ok (vs, rest)
  | .fields fs => ∀ depth rest, 2 * t.length + 1 < depth →
      StartsPart (skipBlanks (t ++ '}' :: rest)) ∧ fields depth (skipBlanks (t ++ '}' :: rest)) = .ok (fs, rest)

theorem value_of_scalar (h : scalar s = .ok (v, rest)) (hdepth : n < depth) : value depth s = .ok (v, rest) := by
  obtain ⟨depth, rfl⟩ := Nat.exists_eq_succ_of_ne_zero (Nat.ne_zero_of_lt hdepth)
  rw [value_scalar (by simp [h]), h]

theorem Spells.readAs {part : Part} (h : Spells t part) : ReadAs t part := by
  induction h with
  | word h => exact fun depth rest hdepth _ => value_of_scalar (scalar_of_mem_words h rest) hdepth
  | number h hshort => exact fun depth rest hdepth hrest => value_of_scalar (h.scalar hshort hrest) hdepth
  | string h => exact fun depth rest hdepth _ => value_of_scalar (h.scalar rest) hdepth
  | @emptyArray b hb =>
    intro depth rest hdepth _
    obtain ⟨depth, rfl⟩ := Nat.exists_eq_succ_of_ne_zero (Nat.ne_zero_of_lt hdepth)
    have hskip : skipBlanks (b ++ ']' :: rest) = ']' :: rest := skipBlanks_cons hb (by decide)
    simp [value, hskip]
  | @array t vs h ih =>
    intro depth rest hdepth _
    obtain ⟨depth, rfl⟩ := Nat.exists_eq_succ_of_ne_zero (Nat.ne_zero_of_lt hdepth)
    obtain ⟨hstarts, hitems⟩ := ih depth rest (by simp at hdepth; omega)
    have happend : '[' :: (t ++ [']']) ++ rest = '[' :: (t ++ ']' :: rest) := by simp
    rw [happend, hstarts.value_array, hitems]
    rfl
  | @emptyObject b hb =>
    intro depth rest hdepth _
    obtain ⟨depth, rfl⟩ := Nat.exists_eq_succ_of_ne_zero (Nat.ne_zero_of_lt hdepth)
    have hskip : skipBlanks (b ++ '}' :: rest) = '}' :: rest := skipBlanks_cons hb (by decide)
    simp [value, hskip]
  | @object t fs h ih =>
    intro depth rest hdepth _
    obtain ⟨depth, rfl⟩ := Nat.exists_eq_succ_of_ne_zero (Nat.ne_zero_of_lt hdepth)
    obtain ⟨hstarts, hfields⟩ := ih depth rest (by simp at hdepth; omega)
    have happend : '{' :: (t ++ ['}']) ++ rest = '{' :: (t ++ '}' :: rest) := by simp
    rw [happend, hstarts.value_object, hfields]
    rfl
  | @item b t b' v hb h hb' ih =>
    intro depth rest hdepth
    obtain ⟨depth, rfl⟩ := Nat.exists_eq_succ_of_ne_zero (Nat.ne_zero_of_lt hdepth)
    have hskip : skipBlanks (b ++ (t ++ b') ++ ']' :: rest) = t ++ (b' ++ ']' :: rest) := by
      simpa using (h.startsPart.append (b' ++ ']' :: rest)).skipBlanks hb
    have hvalue := ih depth (b' ++ ']' :: rest) (by simp at hdepth; omega) (hb'.not_continues (by simp))
    rw [hskip]
    exact ⟨h.startsPart.append _, items_close hvalue (skipBlanks_cons hb' (by decide))⟩
  | @cons b t b' u v vs hb h hb' hs ih ihs =>
    intro depth rest hdepth
    obtain ⟨depth, rfl⟩ := Nat.exists_eq_succ_of_ne_zero (Nat.ne_zero_of_lt hdepth)
    have hskip : skipBlanks (b ++ (t ++ (b' ++ ',' :: u)) ++ ']' :: rest) = t ++ (b' ++ ',' :: (u ++ ']' :: rest)) := by
      simpa using (h.startsPart.append (b' ++ ',' :: (u ++ ']' :: rest))).skipBlanks hb
    have hvalue := ih depth (b' ++ ',' :: (u ++ ']' :: rest)) (by simp at hdepth; omega) (hb'.not_continues (by simp))
    obtain ⟨-, hitems⟩ := ihs depth rest (by simp at hdepth; omega)
    rw [hskip]
    refine ⟨h.startsPart.append _, ?_⟩
    rw [items_comma hvalue (skipBlanks_cons hb' (by decide)), hitems]
    rfl
  | @field k t b name v hk h hb ih =>
    intro depth rest hdepth
    obtain ⟨depth, rfl⟩ := Nat.exists_eq_succ_of_ne_zero (Nat.ne_zero_of_lt hdepth)
    have hvalue := ih depth (b ++ '}' :: rest) (by simp at hdepth; omega) (hb.not_continues (by simp))
    obtain ⟨hstarts, hname⟩ := hk.read (h.startsPart.append (b ++ '}' :: rest))
    have happend : k ++ (t ++ b) ++ '}' :: rest = k ++ (t ++ (b ++ '}' :: rest)) := by simp
    rw [happend]
    refine ⟨hstarts, ?_⟩
    rw [fields_close hname hvalue (skipBlanks_cons hb (by decide)), Json.consField, List.append_nil]
  | @consField k t b u name v fs hk h hb hs ih ihs =>
    intro depth rest hdepth
    obtain ⟨depth, rfl⟩ := Nat.exists_eq_succ_of_ne_zero (Nat.ne_zero_of_lt hdepth)
    have hvalue := ih depth (b ++ ',' :: (u ++ '}' :: rest)) (by simp at hdepth; omega) (hb.not_continues (by simp))
    obtain ⟨hstarts, hname⟩ := hk.read (h.startsPart.append (b ++ ',' :: (u ++ '}' :: rest)))
    obtain ⟨-, hfields⟩ := ihs depth rest (by simp at hdepth; omega)
    have happend : k ++ (t ++ (b ++ ',' :: u)) ++ '}' :: rest = k ++ (t ++ (b ++ ',' :: (u ++ '}' :: rest))) := by simp
    rw [happend]
    refine ⟨hstarts, ?_⟩
    rw [fields_comma hname hvalue (skipBlanks_cons hb (by decide)), hfields]
    rfl

/-- After items or fields and a comma, the reader fails as it does on what follows. -/
def PassesOn (t : Text) : Part → Prop
  | .value _ => True
  | .items _ => ∀ depth rest, 2 * (t.length + rest.length) + 3 < depth → ∃ depth', 2 * rest.length + 1 < depth' ∧
      StartsPart (skipBlanks (t ++ ',' :: rest)) ∧
      ∀ e, items depth' (skipBlanks rest) = .error e → items depth (skipBlanks (t ++ ',' :: rest)) = .error e
  | .fields _ => ∀ depth rest, 2 * (t.length + rest.length) + 3 < depth → ∃ depth', 2 * rest.length + 1 < depth' ∧
      StartsPart (skipBlanks (t ++ ',' :: rest)) ∧
      ∀ e, fields depth' (skipBlanks rest) = .error e → fields depth (skipBlanks (t ++ ',' :: rest)) = .error e

theorem Spells.passesOn {part : Part} (h : Spells t part) : PassesOn t part := by
  induction h with
  | word | number | string | emptyArray | array | emptyObject | object => trivial
  | @item b t b' v hb h hb' =>
    intro depth rest hdepth
    obtain ⟨depth, rfl⟩ := Nat.exists_eq_succ_of_ne_zero (Nat.ne_zero_of_lt hdepth)
    simp only [List.length_append] at hdepth
    have hskip : skipBlanks (b ++ (t ++ b') ++ ',' :: rest) = t ++ (b' ++ ',' :: rest) := by
      simpa using (h.startsPart.append (b' ++ ',' :: rest)).skipBlanks hb
    have hvalue := h.readAs depth (b' ++ ',' :: rest) (by omega) (hb'.not_continues (by simp))
    rw [hskip]
    refine ⟨depth, by omega, h.startsPart.append _, fun e he => ?_⟩
    rw [items_comma hvalue (skipBlanks_cons hb' (by decide)), he]
    rfl
  | @cons b t b' u v vs hb h hb' hs _ ihs =>
    intro depth rest hdepth
    obtain ⟨depth, rfl⟩ := Nat.exists_eq_succ_of_ne_zero (Nat.ne_zero_of_lt hdepth)
    simp only [List.length_append, List.length_cons] at hdepth
    have hskip : skipBlanks (b ++ (t ++ (b' ++ ',' :: u)) ++ ',' :: rest) = t ++ (b' ++ ',' :: (u ++ ',' :: rest)) := by
      simpa using (h.startsPart.append (b' ++ ',' :: (u ++ ',' :: rest))).skipBlanks hb
    have hvalue := h.readAs depth (b' ++ ',' :: (u ++ ',' :: rest)) (by omega) (hb'.not_continues (by simp))
    obtain ⟨depth', hdepth', -, herror⟩ := ihs depth rest (by omega)
    rw [hskip]
    refine ⟨depth', hdepth', h.startsPart.append _, fun e he => ?_⟩
    rw [items_comma hvalue (skipBlanks_cons hb' (by decide)), herror e he]
    rfl
  | @field k t b name v hk h hb =>
    intro depth rest hdepth
    obtain ⟨depth, rfl⟩ := Nat.exists_eq_succ_of_ne_zero (Nat.ne_zero_of_lt hdepth)
    simp only [List.length_append] at hdepth
    have hvalue := h.readAs depth (b ++ ',' :: rest) (by omega) (hb.not_continues (by simp))
    obtain ⟨hstarts, hname⟩ := hk.read (h.startsPart.append (b ++ ',' :: rest))
    have happend : k ++ (t ++ b) ++ ',' :: rest = k ++ (t ++ (b ++ ',' :: rest)) := by simp
    rw [happend]
    refine ⟨depth, by omega, hstarts, fun e he => ?_⟩
    rw [fields_comma hname hvalue (skipBlanks_cons hb (by decide)), he]
    rfl
  | @consField k t b u name v fs hk h hb hs _ ihs =>
    intro depth rest hdepth
    obtain ⟨depth, rfl⟩ := Nat.exists_eq_succ_of_ne_zero (Nat.ne_zero_of_lt hdepth)
    simp only [List.length_append, List.length_cons] at hdepth
    have hvalue := h.readAs depth (b ++ ',' :: (u ++ ',' :: rest)) (by omega) (hb.not_continues (by simp))
    obtain ⟨hstarts, hname⟩ := hk.read (h.startsPart.append (b ++ ',' :: (u ++ ',' :: rest)))
    obtain ⟨depth', hdepth', -, herror⟩ := ihs depth rest (by omega)
    have happend : k ++ (t ++ (b ++ ',' :: u)) ++ ',' :: rest = k ++ (t ++ (b ++ ',' :: (u ++ ',' :: rest))) := by simp
    rw [happend]
    refine ⟨depth', hdepth', hstarts, fun e he => ?_⟩
    rw [fields_comma hname hvalue (skipBlanks_cons hb (by decide)), herror e he]
    rfl

/-- What is opened hands the failure of what is inside on. -/
theorem Opens.value_error {p : Text} {e : Defect} (hp : Opens p) (ht : StartsPart t)
    (h : ∀ depth, 2 * t.length < depth → value depth t = .error e) (hdepth : 2 * (p ++ t).length < depth) :
    value depth (p ++ t) = .error e := by
  obtain ⟨depth, rfl⟩ := Nat.exists_eq_succ_of_ne_zero (Nat.ne_zero_of_lt hdepth)
  have hitems : ∀ b depth, IsBlank b → 2 * (b ++ t).length + 1 < depth → items depth (skipBlanks (b ++ t)) = .error e := by
    intro b depth hb hdepth
    obtain ⟨depth, rfl⟩ := Nat.exists_eq_succ_of_ne_zero (Nat.ne_zero_of_lt hdepth)
    rw [ht.skipBlanks hb]
    exact items_error (h depth (by simp at hdepth; omega))
  have hfields : ∀ k name depth, SpellsName k name → 2 * (k ++ t).length + 1 < depth →
      fields depth (skipBlanks (k ++ t)) = .error e := by
    intro k name depth hk hdepth
    obtain ⟨depth, rfl⟩ := Nat.exists_eq_succ_of_ne_zero (Nat.ne_zero_of_lt hdepth)
    exact fields_error (hk.read ht).2 (h depth (by simp at hdepth; omega))
  cases hp with
  | @array b hb =>
    have hstarts : StartsPart (skipBlanks (b ++ t)) := (ht.skipBlanks hb).symm ▸ ht
    rw [List.cons_append, hstarts.value_array, hitems b depth hb (by simp at hdepth ⊢; omega)]
    rfl
  | @item u b vs hs hb =>
    obtain ⟨depth', hdepth', hstarts, herror⟩ := hs.passesOn depth (b ++ t) (by simp at hdepth ⊢; omega)
    have happend : '[' :: (u ++ ',' :: b) ++ t = '[' :: (u ++ ',' :: (b ++ t)) := by simp
    rw [happend, hstarts.value_array, herror e (hitems b depth' hb hdepth')]
    rfl
  | @object k name hk =>
    rw [List.cons_append, (hk.read ht).1.value_object, hfields k name depth hk (by simp at hdepth ⊢; omega)]
    rfl
  | @field u k fs name hs hk =>
    obtain ⟨depth', hdepth', hstarts, herror⟩ := hs.passesOn depth (k ++ t) (by simp at hdepth ⊢; omega)
    have happend : '{' :: (u ++ ',' :: k) ++ t = '{' :: (u ++ ',' :: (k ++ t)) := by simp
    rw [happend, hstarts.value_object, herror e (hfields k name depth' hk hdepth')]
    rfl

theorem HasLong.value_eq (h : HasLong t n) : ∀ depth, 2 * t.length < depth → value depth t = .error (.tooManyDigits n) := by
  induction h with
  | here h hlong hrest =>
    intro depth hdepth
    obtain ⟨depth, rfl⟩ := Nat.exists_eq_succ_of_ne_zero (Nat.ne_zero_of_lt hdepth)
    have hread := h.scalar_long hlong hrest
    rw [value_scalar (by rw [hread]; simp), hread]
  | inside hp h ih => exact fun depth hdepth => hp.value_error h.startsPart ih hdepth

/-! ## What the readers take -/

/-- More white space in front of items. -/
theorem Spells.blank_append {vs : List Json} (h : Spells t (.items vs)) (hb : IsBlank b) : Spells (b ++ t) (.items vs) := by
  cases h with
  | item hb₁ h hb' => exact List.append_assoc b _ _ ▸ .item (hb.append hb₁) h hb'
  | cons hb₁ h hb' hs => exact List.append_assoc b _ _ ▸ .cons (hb.append hb₁) h hb' hs

theorem SpellsName.blank_append (h : SpellsName k name) (hb : IsBlank b) : SpellsName (b ++ k) name := by
  obtain ⟨hb₁, h, hb', hb''⟩ := h
  exact List.append_assoc b _ _ ▸ .mk (hb.append hb₁) h hb' hb''

theorem Spells.blank_append_fields {fs : List (Text × Json)} (h : Spells t (.fields fs)) (hb : IsBlank b) :
    Spells (b ++ t) (.fields fs) := by
  cases h with
  | field hk h hb' => exact List.append_assoc b _ _ ▸ .field (hk.blank_append hb) h hb'
  | consField hk h hb' hs => exact List.append_assoc b _ _ ▸ .consField (hk.blank_append hb) h hb' hs

theorem Opens.blank_append {p : Text} {c : Char} (h : Opens (c :: p)) (hb : IsBlank b) : Opens (c :: (b ++ p)) := by
  cases h with
  | array hb₁ => exact .array (hb.append hb₁)
  | item hs hb' => exact List.append_assoc b _ _ ▸ .item (hs.blank_append hb) hb'
  | object hk => exact .object (hk.blank_append hb)
  | field hs hk => exact List.append_assoc b _ _ ▸ .field (hs.blank_append_fields hb) hk

/-- One more item in front. -/
theorem Opens.cons {p : Text} (h : Opens ('[' :: p)) (ht : Spells t (.value v)) (hb : IsBlank b) :
    Opens ('[' :: (t ++ (b ++ ',' :: p))) := by
  cases h with
  | array hb₁ =>
    have hs := Spells.item .nil ht hb
    simpa using Opens.item hs hb₁
  | item hs hb' =>
    have hs := Spells.cons .nil ht hb hs
    simpa using Opens.item hs hb'

/-- One more field in front. -/
theorem Opens.consField {p : Text} (h : Opens ('{' :: p)) (hk : SpellsName k name) (ht : Spells t (.value v))
    (hb : IsBlank b) : Opens ('{' :: (k ++ (t ++ (b ++ ',' :: p)))) := by
  cases h with
  | object hk' =>
    have hs := Spells.field hk ht hb
    simpa using Opens.field hs hk'
  | field hs hk' =>
    have hs := Spells.consField hk ht hb hs
    simpa using Opens.field hs hk'

/-- What is read up to this depth is a text of the grammar, and what is refused for a number has it. -/
structure Sound (depth : Nat) : Prop where
  value_ok : ∀ s v rest, value depth s = .ok (v, rest) → ∃ t, Spells t (.value v) ∧ s = t ++ rest
  value_error : ∀ s n, value depth s = .error (.tooManyDigits n) → HasLong s n
  items_ok : ∀ s vs rest, items depth s = .ok (vs, rest) → ∃ t, Spells t (.items vs) ∧ s = t ++ ']' :: rest
  items_error : ∀ s n, items depth s = .error (.tooManyDigits n) → ∃ p t, Opens ('[' :: p) ∧ HasLong t n ∧ s = p ++ t
  fields_ok : ∀ s fs rest, fields depth s = .ok (fs, rest) → ∃ t, Spells t (.fields fs) ∧ s = t ++ '}' :: rest
  fields_error : ∀ s n, fields depth s = .error (.tooManyDigits n) → ∃ p t, Opens ('{' :: p) ∧ HasLong t n ∧ s = p ++ t

theorem Sound.value_ok_succ (hd : Sound depth) (h : value (depth + 1) s = .ok (v, rest)) :
    ∃ t, Spells t (.value v) ∧ s = t ++ rest := by
  unfold value at h
  split at h
  · cases ‹depth + 1 = 0›
  · rename_i d s heq
    obtain rfl := Nat.succ.inj heq
    obtain ⟨b, hb, hs⟩ := exists_skipBlanks s
    split at h
    · rename_i rest' hskip
      obtain ⟨rfl, rfl⟩ := Prod.mk.inj (Except.ok.inj h)
      refine ⟨_, .emptyArray hb, ?_⟩
      rw [← hs, hskip]
      simp
    · obtain ⟨⟨vs, rest'⟩, hitems, hpair⟩ := map_eq_ok.1 h
      obtain ⟨rfl, rfl⟩ := Prod.mk.inj hpair
      obtain ⟨t, ht, hskip⟩ := hd.items_ok _ _ _ hitems
      refine ⟨_, .array (ht.blank_append hb), ?_⟩
      rw [← hs, hskip]
      simp
  · rename_i d s heq
    obtain rfl := Nat.succ.inj heq
    obtain ⟨b, hb, hs⟩ := exists_skipBlanks s
    split at h
    · rename_i rest' hskip
      obtain ⟨rfl, rfl⟩ := Prod.mk.inj (Except.ok.inj h)
      refine ⟨_, .emptyObject hb, ?_⟩
      rw [← hs, hskip]
      simp
    · obtain ⟨⟨fs, rest'⟩, hfields, hpair⟩ := map_eq_ok.1 h
      obtain ⟨rfl, rfl⟩ := Prod.mk.inj hpair
      obtain ⟨t, ht, hskip⟩ := hd.fields_ok _ _ _ hfields
      refine ⟨_, .object (ht.blank_append_fields hb), ?_⟩
      rw [← hs, hskip]
      simp
  · exact exists_of_scalar h

theorem Sound.value_error_succ (hd : Sound depth) (h : value (depth + 1) s = .error (.tooManyDigits n)) : HasLong s n := by
  unfold value at h
  split at h
  · cases ‹depth + 1 = 0›
  · rename_i d s heq
    obtain rfl := Nat.succ.inj heq
    obtain ⟨b, hb, hs⟩ := exists_skipBlanks s
    split at h
    · cases h
    · obtain ⟨p, t, hp, ht, hskip⟩ := hd.items_error _ _ (map_eq_error.1 h)
      rw [← hs, hskip, ← List.append_assoc]
      exact .inside (hp.blank_append hb) ht
  · rename_i d s heq
    obtain rfl := Nat.succ.inj heq
    obtain ⟨b, hb, hs⟩ := exists_skipBlanks s
    split at h
    · cases h
    · obtain ⟨p, t, hp, ht, hskip⟩ := hd.fields_error _ _ (map_eq_error.1 h)
      rw [← hs, hskip, ← List.append_assoc]
      exact .inside (hp.blank_append hb) ht
  · exact hasLong_of_scalar h

theorem Sound.items_ok_succ {vs : List Json} (hd : Sound depth) (h : items (depth + 1) s = .ok (vs, rest)) :
    ∃ t, Spells t (.items vs) ∧ s = t ++ ']' :: rest := by
  rw [items] at h
  obtain ⟨⟨v, t₁⟩, hvalue, hafter⟩ := bind_eq_ok.1 h
  obtain ⟨t, ht, rfl⟩ := hd.value_ok _ _ _ hvalue
  obtain ⟨b, hb, hs⟩ := exists_skipBlanks t₁
  dsimp only at hafter
  split at hafter
  · rename_i rest' hskip
    obtain ⟨rfl, rfl⟩ := Prod.mk.inj (Except.ok.inj hafter)
    refine ⟨_, .item .nil ht hb, ?_⟩
    rw [← hs, hskip]
    simp
  · rename_i u hskip
    obtain ⟨⟨vs', rest'⟩, hitems, hpair⟩ := map_eq_ok.1 hafter
    obtain ⟨rfl, rfl⟩ := Prod.mk.inj hpair
    obtain ⟨t', ht', hu⟩ := hd.items_ok _ _ _ hitems
    obtain ⟨b', hb', hs'⟩ := exists_skipBlanks u
    refine ⟨_, .cons .nil ht hb (ht'.blank_append hb'), ?_⟩
    rw [← hs, hskip, ← hs', hu]
    simp
  · cases hafter

theorem Sound.items_error_succ (hd : Sound depth) (h : items (depth + 1) s = .error (.tooManyDigits n)) :
    ∃ p t, Opens ('[' :: p) ∧ HasLong t n ∧ s = p ++ t := by
  rw [items] at h
  rcases bind_eq_error.1 h with hvalue | ⟨⟨v, t₁⟩, hvalue, hafter⟩
  · exact ⟨[], s, .array .nil, hd.value_error _ _ hvalue, rfl⟩
  · obtain ⟨t, ht, rfl⟩ := hd.value_ok _ _ _ hvalue
    obtain ⟨b, hb, hs⟩ := exists_skipBlanks t₁
    dsimp only at hafter
    split at hafter
    · cases hafter
    · rename_i u hskip
      obtain ⟨p, t', hp, ht', hu⟩ := hd.items_error _ _ (map_eq_error.1 hafter)
      obtain ⟨b', hb', hs'⟩ := exists_skipBlanks u
      refine ⟨_, t', (hp.blank_append hb').cons ht hb, ht', ?_⟩
      rw [← hs, hskip, ← hs', hu]
      simp
    · cases hafter

theorem Sound.fields_ok_succ {fs : List (Text × Json)} (hd : Sound depth) (h : fields (depth + 1) s = .ok (fs, rest)) :
    ∃ t, Spells t (.fields fs) ∧ s = t ++ '}' :: rest := by
  rw [fields] at h
  split at h
  · cases h
  · rename_i x t₀ hname
    obtain ⟨k, name, hk, rfl, rfl⟩ := exists_of_fieldName hname
    obtain ⟨⟨v, t₁⟩, hvalue, hafter⟩ := bind_eq_ok.1 h
    obtain ⟨t, ht, rfl⟩ := hd.value_ok _ _ _ hvalue
    obtain ⟨b, hb, hs⟩ := exists_skipBlanks t₁
    dsimp only at hafter
    split at hafter
    · rename_i rest' hskip
      obtain ⟨rfl, rfl⟩ := Prod.mk.inj (Except.ok.inj hafter)
      refine ⟨k ++ (t ++ b), by simpa [Json.consField] using Spells.field hk ht hb, ?_⟩
      rw [← hs, hskip]
      simp
    · rename_i u hskip
      obtain ⟨⟨fs', rest'⟩, hfields, hpair⟩ := map_eq_ok.1 hafter
      obtain ⟨rfl, rfl⟩ := Prod.mk.inj hpair
      obtain ⟨t', ht', hu⟩ := hd.fields_ok _ _ _ hfields
      obtain ⟨b', hb', hs'⟩ := exists_skipBlanks u
      refine ⟨_, .consField hk ht hb (ht'.blank_append_fields hb'), ?_⟩
      rw [← hs, hskip, ← hs', hu]
      simp
    · cases hafter

theorem Sound.fields_error_succ (hd : Sound depth) (h : fields (depth + 1) s = .error (.tooManyDigits n)) :
    ∃ p t, Opens ('{' :: p) ∧ HasLong t n ∧ s = p ++ t := by
  rw [fields] at h
  split at h
  · cases h
  · rename_i x t₀ hname
    obtain ⟨k, name, hk, rfl, rfl⟩ := exists_of_fieldName hname
    rcases bind_eq_error.1 h with hvalue | ⟨⟨v, t₁⟩, hvalue, hafter⟩
    · exact ⟨k, t₀, .object hk, hd.value_error _ _ hvalue, rfl⟩
    · obtain ⟨t, ht, rfl⟩ := hd.value_ok _ _ _ hvalue
      obtain ⟨b, hb, hs⟩ := exists_skipBlanks t₁
      dsimp only at hafter
      split at hafter
      · cases hafter
      · rename_i u hskip
        obtain ⟨p, t', hp, ht', hu⟩ := hd.fields_error _ _ (map_eq_error.1 hafter)
        obtain ⟨b', hb', hs'⟩ := exists_skipBlanks u
        refine ⟨_, t', (hp.blank_append hb').consField hk ht hb, ht', ?_⟩
        rw [← hs, hskip, ← hs', hu]
        simp
      · cases hafter

theorem sound (depth : Nat) : Sound depth := by
  induction depth with
  | zero => constructor <;> (intros; rename_i h; cases h)
  | succ depth ih =>
    exact ⟨fun _ _ _ => ih.value_ok_succ, fun _ _ => ih.value_error_succ, fun _ _ _ => ih.items_ok_succ,
      fun _ _ => ih.items_error_succ, fun _ _ _ => ih.fields_ok_succ, fun _ _ => ih.fields_error_succ⟩

/-! ## Whole texts -/

/-- A text is read as the value that it spells, with white space around it. -/
theorem read_eq_ok_iff : read s = .ok v ↔ ∃ b t b', IsBlank b ∧ Spells t (.value v) ∧ IsBlank b' ∧ s = b ++ (t ++ b') := by
  constructor
  · intro h
    obtain ⟨⟨v', rest⟩, hvalue, h⟩ := bind_eq_ok.1 h
    dsimp only at h
    split at h
    · rename_i hrest
      obtain rfl := Except.ok.inj h
      obtain ⟨b, hb, hs⟩ := exists_skipBlanks s
      obtain ⟨t, ht, hskip⟩ := (sound _).value_ok _ _ _ hvalue
      obtain ⟨b', hb', hrest'⟩ := exists_skipBlanks rest
      rw [hrest, List.append_nil] at hrest'
      exact ⟨b, t, rest, hb, ht, hrest' ▸ hb', by rw [← hskip, hs]⟩
    · cases h
  · rintro ⟨b, t, b', hb, ht, hb', rfl⟩
    have hskip : skipBlanks (b ++ (t ++ b')) = t ++ b' := (ht.startsPart.append b').skipBlanks hb
    have hend : skipBlanks b' = [] := by simpa using skipBlanks_append (s := []) hb' (by simp)
    have hvalue := ht.readAs (2 * (b ++ (t ++ b')).length + 1) b' (by simp; omega) hb'.not_continues_nil
    rw [Json.read, hskip, hvalue, ok_bind]
    exact if_pos hend

/-- A text is refused for a number when one with too many digits comes before anything malformed. -/
theorem read_eq_tooManyDigits_iff : read s = .error (.tooManyDigits n) ↔ ∃ b t, IsBlank b ∧ HasLong t n ∧ s = b ++ t := by
  constructor
  · intro h
    obtain ⟨b, hb, hs⟩ := exists_skipBlanks s
    rcases bind_eq_error.1 h with hvalue | ⟨⟨v', rest⟩, -, h⟩
    · exact ⟨b, _, hb, (sound _).value_error _ _ hvalue, hs.symm⟩
    · dsimp only at h
      split at h <;> cases h
  · rintro ⟨b, t, hb, ht, rfl⟩
    have hvalue := ht.value_eq (2 * (b ++ t).length + 1) (by simp)
    rw [Json.read, ht.startsPart.skipBlanks hb, hvalue, error_bind]

theorem ofText?_eq_some_iff :
    ofText? s = some v ↔ ∃ b t b', IsBlank b ∧ Spells t (.value v) ∧ IsBlank b' ∧ s = b ++ (t ++ b') := by
  rw [← read_eq_ok_iff, ofText?]
  cases read s <;> simp [Except.toOption]

end Readers

end SassModules.Json
