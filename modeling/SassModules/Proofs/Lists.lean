import Mathlib

/-!
# Lists and results

Facts about lists and about `Except` that several modules use and that say nothing about stylesheets: how a sequence of
results is taken apart, and when a search or a listing without repetitions is told by what it holds.
-/

namespace SassModules

/-! ## One result after another -/

section Results

variable {ε ε' α β : Type}

/-- A sequence gives a value when both parts do. -/
theorem bind_eq_ok {x : Except ε α} {f : α → Except ε β} {b : β} :
    x >>= f = .ok b ↔ ∃ a, x = .ok a ∧ f a = .ok b := by
  cases x with
  | error e =>
    constructor
    · intro h; cases h
    · rintro ⟨_, h, _⟩; cases h
  | ok a =>
    constructor
    · intro h; exact ⟨a, rfl, h⟩
    · rintro ⟨_, h, hf⟩; cases h; exact hf

/-- A sequence faults when a part does, the first one first. -/
theorem bind_eq_error {x : Except ε α} {f : α → Except ε β} {e : ε} :
    x >>= f = .error e ↔ x = .error e ∨ ∃ a, x = .ok a ∧ f a = .error e := by
  cases x with
  | error e' =>
    constructor
    · intro h; cases h; exact .inl rfl
    · rintro (h | ⟨_, h, _⟩) <;> cases h; rfl
  | ok a =>
    constructor
    · intro h; exact .inr ⟨a, rfl, h⟩
    · rintro (h | ⟨_, h, hf⟩) <;> cases h; exact hf

theorem ok_bind (a : α) (f : α → Except ε β) : (Except.ok a >>= f) = f a := rfl

theorem error_bind (e : ε) (f : α → Except ε β) : (Except.error e >>= f) = .error e := rfl

theorem map_eq_ok {x : Except ε α} {f : α → β} {b : β} : x.map f = .ok b ↔ ∃ a, x = .ok a ∧ f a = b := by
  cases x <;> simp [Except.map]

theorem map_eq_error {x : Except ε α} {f : α → β} {e : ε} : x.map f = .error e ↔ x = .error e := by
  cases x <;> simp [Except.map]

theorem mapError_eq_ok {x : Except ε α} {f : ε → ε'} {a : α} : x.mapError f = .ok a ↔ x = .ok a := by
  cases x <;> simp [Except.mapError]

theorem mapError_eq_error {x : Except ε α} {f : ε → ε'} {e : ε'} :
    x.mapError f = .error e ↔ ∃ cause, x = .error cause ∧ f cause = e := by
  cases x <;> simp [Except.mapError]

end Results

/-! ## One result for each element of a list -/

section Traversals

variable {ε α β : Type} {f : α → Except ε β} {l : List α}

/-- A sequence of work that gives a value for each element. -/
theorem mapM_eq_ok {g : α → β} (l : List α) (h : ∀ a ∈ l, f a = .ok (g a)) : l.mapM f = .ok (l.map g) := by
  induction l with
  | nil => rfl
  | cons a l ih =>
    rw [List.mapM_cons, h a List.mem_cons_self, ih fun b hb => h b (List.mem_cons_of_mem a hb)]
    rfl

/-- The results of a sequence stand beside its elements. -/
theorem forall₂_of_mapM : ∀ {l : List α} {bs : List β}, l.mapM f = .ok bs → List.Forall₂ (fun a b => f a = .ok b) l bs
  | [], bs, h => by
    rw [List.mapM_nil] at h
    obtain rfl := Except.ok.inj h
    exact .nil
  | a :: l, bs, h => by
    rw [List.mapM_cons] at h
    obtain ⟨c, hc, h⟩ := bind_eq_ok.1 h
    obtain ⟨cs, hcs, h⟩ := bind_eq_ok.1 h
    obtain rfl := Except.ok.inj h
    exact .cons hc (forall₂_of_mapM hcs)

/-- What a sequence of results holds comes from one of its elements. -/
theorem exists_of_mem_mapM {b : β} {bs : List β} (h : l.mapM f = .ok bs) (hb : b ∈ bs) : ∃ a ∈ l, f a = .ok b := by
  obtain ⟨i, hi, rfl⟩ := List.getElem_of_mem hb
  have hall := forall₂_of_mapM h
  exact ⟨l.get ⟨i, hall.length_eq ▸ hi⟩, List.get_mem _ _, hall.get _ hi⟩

/-- In a sequence that gives values every element has one. -/
theorem exists_ok_of_mapM {a : α} {bs : List β} (h : l.mapM f = .ok bs) (ha : a ∈ l) : ∃ b ∈ bs, f a = .ok b := by
  obtain ⟨i, hi, rfl⟩ := List.getElem_of_mem ha
  have hall := forall₂_of_mapM h
  exact ⟨bs.get ⟨i, hall.length_eq ▸ hi⟩, List.get_mem _ _, hall.get hi _⟩

/-- The fault of a sequence is the fault of one of its elements. -/
theorem exists_of_mapM_eq_error {e : ε} : ∀ {l : List α}, l.mapM f = .error e → ∃ a ∈ l, f a = .error e
  | [], h => by rw [List.mapM_nil] at h; cases h
  | a :: l, h => by
    rw [List.mapM_cons] at h
    rcases bind_eq_error.1 h with h | ⟨b, -, h⟩
    · exact ⟨a, List.mem_cons_self, h⟩
    · rcases bind_eq_error.1 h with h | ⟨bs, -, h⟩
      · obtain ⟨a', ha', h⟩ := exists_of_mapM_eq_error h
        exact ⟨a', List.mem_cons_of_mem a ha', h⟩
      · cases h

/-- Two results are values in a relation, or the same fault. -/
def EndsAlike {γ : Type} (R : β → γ → Prop) (x : Except ε β) (y : Except ε γ) : Prop :=
  (∃ b c, x = .ok b ∧ y = .ok c ∧ R b c) ∨ ∃ e, x = .error e ∧ y = .error e

/-- Sequences that end alike at each element end alike, with values that are related one by one. -/
theorem endsAlike_mapM {γ : Type} {R : β → γ → Prop} {g : α → Except ε γ} : ∀ {l : List α},
    (∀ a ∈ l, EndsAlike R (f a) (g a)) → EndsAlike (List.Forall₂ R) (l.mapM f) (l.mapM g)
  | [], _ => Or.inl ⟨[], [], List.mapM_nil, List.mapM_nil, .nil⟩
  | a :: l, h => by
    rw [List.mapM_cons, List.mapM_cons]
    rcases h a List.mem_cons_self with ⟨b, c, hb, hc, hbc⟩ | ⟨e, hf, hg⟩
    · rw [hb, hc, ok_bind, ok_bind]
      rcases endsAlike_mapM fun a' ha' => h a' (List.mem_cons_of_mem a ha') with ⟨bs, cs, hbs, hcs, hall⟩ | ⟨e, hf, hg⟩
      · rw [hbs, hcs]
        exact Or.inl ⟨b :: bs, c :: cs, rfl, rfl, .cons hbc hall⟩
      · rw [hf, hg]
        exact Or.inr ⟨e, rfl, rfl⟩
    · rw [hf, hg]
      exact Or.inr ⟨e, rfl, rfl⟩

/-- A sequence in which only one fault is possible ends with it when an element does. -/
theorem mapM_eq_error {P : α → Prop} {fault e : ε} (hf : ∀ a e, f a = .error e ↔ P a ∧ e = fault) (l : List α) :
    l.mapM f = .error e ↔ (∃ a ∈ l, P a) ∧ e = fault := by
  constructor
  · intro h
    obtain ⟨a, ha, h⟩ := exists_of_mapM_eq_error h
    exact ⟨⟨a, ha, ((hf a e).1 h).1⟩, ((hf a e).1 h).2⟩
  · rintro ⟨⟨a, ha, hP⟩, rfl⟩
    cases h : l.mapM f with
    | error e' =>
      obtain ⟨_, -, he⟩ := exists_of_mapM_eq_error h
      rw [((hf _ _).1 he).2]
    | ok bs =>
      obtain ⟨b, -, hb⟩ := exists_ok_of_mapM h ha
      rw [(hf a e).2 ⟨hP, rfl⟩] at hb
      cases hb

end Traversals

/-! ## Lists told by what they hold -/

section Lists

variable {α β γ : Type}

/-- A list without its repetitions has none. -/
theorem nodup_eraseDups [BEq α] [LawfulBEq α] : ∀ l : List α, l.eraseDups.Nodup
  | [] => by simp
  | a :: l => by
    rw [List.eraseDups_cons, List.nodup_cons]
    refine ⟨?_, nodup_eraseDups (l.filter fun b => !b == a)⟩
    simp [List.mem_eraseDups]
termination_by l => l.length
decreasing_by exact Nat.lt_succ_of_le (List.length_filter_le _ _)

/-- The first element with a property is the one that alone has it. -/
theorem find?_eq_of_only {p : α → Bool} {l : List α} {a : α} (ha : a ∈ l) (hp : p a = true)
    (honly : ∀ b ∈ l, p b = true → b = a) : l.find? p = some a := by
  cases hfind : l.find? p with
  | none => exact absurd hp (List.find?_eq_none.1 hfind a ha)
  | some b => rw [honly b (List.mem_of_find?_eq_some hfind) (List.find?_some hfind)]

/-- Reading back what was written, where every element is read back. -/
theorem filterMap_map_eq_map {write : α → β} {l : List α} {read : β → Option γ} {f : α → γ}
    (h : ∀ a ∈ l, read (write a) = some (f a)) : (l.map write).filterMap read = l.map f := by
  rw [List.filterMap_map]
  exact (List.filterMap_congr h).trans (congrFun List.filterMap_eq_map l)

theorem filterMap_map_eq_nil {write : α → β} {l : List α} {read : β → Option γ} (h : ∀ a, read (write a) = none) :
    (l.map write).filterMap read = [] := by
  simp [h]

end Lists

/-! ## The first of each key -/

section FirstOf

variable {α κ : Type} [DecidableEq κ] {key : α → κ} {a : α}

/-- The first element of each key that was not seen before, in order. -/
def firstOf (key : α → κ) : (seen : List κ) → List α → List α
  | _, [] => []
  | seen, a :: as => if key a ∈ seen then firstOf key seen as else a :: firstOf key (key a :: seen) as

theorem firstOf_cons_of_mem {seen : List κ} {as : List α} (h : key a ∈ seen) :
    firstOf key seen (a :: as) = firstOf key seen as := if_pos h

theorem firstOf_cons_of_not_mem {seen : List κ} {as : List α} (h : key a ∉ seen) :
    firstOf key seen (a :: as) = a :: firstOf key (key a :: seen) as := if_neg h

/-- What is kept stands in the list and has a new key. -/
theorem of_mem_firstOf : ∀ {as : List α} {seen : List κ}, a ∈ firstOf key seen as → a ∈ as ∧ key a ∉ seen
  | [], _, h => absurd h List.not_mem_nil
  | b :: as, seen, h => by
    by_cases hb : key b ∈ seen
    · rw [firstOf_cons_of_mem hb] at h
      exact (of_mem_firstOf h).imp_left (List.mem_cons_of_mem b)
    · rw [firstOf_cons_of_not_mem hb] at h
      rcases List.mem_cons.1 h with rfl | h
      · exact ⟨List.mem_cons_self, hb⟩
      · obtain ⟨hmem, hseen⟩ := of_mem_firstOf h
        exact ⟨List.mem_cons_of_mem b hmem, fun hs => hseen (List.mem_cons_of_mem _ hs)⟩

/-- The keys that are kept differ from each other. -/
theorem nodup_keys_firstOf : ∀ (as : List α) (seen : List κ), ((firstOf key seen as).map key).Nodup
  | [], _ => List.nodup_nil
  | a :: as, seen => by
    by_cases ha : key a ∈ seen
    · rw [firstOf_cons_of_mem ha]
      exact nodup_keys_firstOf as seen
    · rw [firstOf_cons_of_not_mem ha, List.map_cons, List.nodup_cons]
      refine ⟨fun hmem => ?_, nodup_keys_firstOf as _⟩
      obtain ⟨b, hb, hkey⟩ := List.mem_map.1 hmem
      exact (of_mem_firstOf hb).2 (hkey ▸ List.mem_cons_self)

/-- The last element is kept when its key is new. -/
theorem firstOf_concat (a : α) : ∀ (as : List α) (seen : List κ), firstOf key seen (as ++ [a]) =
    firstOf key seen as ++ if key a ∉ seen ∧ key a ∉ as.map key then [a] else []
  | [], seen => by
    by_cases ha : key a ∈ seen <;> simp [firstOf, ha]
  | b :: as, seen => by
    rw [List.cons_append]
    by_cases hb : key b ∈ seen
    · rw [firstOf_cons_of_mem hb, firstOf_cons_of_mem hb, firstOf_concat a as seen]
      congr 2
      refine propext (and_congr_right fun ha => ?_)
      have hne : key a ≠ key b := fun h => ha (h ▸ hb)
      simp [hne]
    · rw [firstOf_cons_of_not_mem hb, firstOf_cons_of_not_mem hb, firstOf_concat a as (key b :: seen), List.cons_append]
      congr 3
      simp only [List.mem_cons, List.map_cons, not_or, and_assoc, and_left_comm]

/-- The first of each key, told as the list without those that repeat a key. -/
theorem firstOf_eq_eraseDupsBy [BEq κ] [LawfulBEq κ] : ∀ (as : List α) (seen : List κ), firstOf key seen as =
    (as.filter fun a => !seen.contains (key a)).eraseDupsBy fun a b => key a == key b
  | [], _ => rfl
  | a :: as, seen => by
    by_cases ha : key a ∈ seen
    · rw [firstOf_cons_of_mem ha, List.filter_cons_of_neg (by simp [ha])]
      exact firstOf_eq_eraseDupsBy as seen
    · rw [firstOf_cons_of_not_mem ha, List.filter_cons_of_pos (by simp [ha]), List.eraseDupsBy_cons, List.filter_filter,
        firstOf_eq_eraseDupsBy as (key a :: seen)]
      congr 2
      refine List.filter_congr fun b _ => ?_
      by_cases hkey : key b = key a <;> simp [hkey]

end FirstOf

end SassModules
