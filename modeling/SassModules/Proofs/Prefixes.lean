import SassModules.Cursor.Reference
import SassModules.Name
import Mathlib

/-!
# Putting prefixes on names and taking them off

A prefix stands between the sigil and the bare name, so it can be taken off again as long as the sigil can be told
apart: a prefix that holds no `$` comes off a name that it was put on (`stripPrefix?_addPrefix`), and goes back onto a
name with one sigil at most that it was taken off (`addPrefix_of_stripPrefix?`).
-/

namespace SassModules.Name

variable {n o p : Text} {pre : Option Text}

theorem sigil_append_bare (n : Text) : sigil n ++ bare n = n := by
  unfold sigil bare
  split <;> rfl

theorem sigil_eq_nil_or (n : Text) : sigil n = [] ∨ sigil n = ['$'] := by
  unfold sigil
  split
  · exact Or.inr rfl
  · exact Or.inl rfl

/-- Only `$` is a sigil. -/
theorem sigil_cons_of_ne {c : Char} (hc : c ≠ '$') (n : Text) : sigil (c :: n) = [] := by
  unfold sigil
  split
  · rename_i m heq; exact absurd (List.cons.inj heq).1 hc
  · rfl

theorem bare_cons_of_ne {c : Char} (hc : c ≠ '$') (n : Text) : bare (c :: n) = c :: n := by
  have h := sigil_append_bare (c :: n)
  rwa [sigil_cons_of_ne hc] at h

theorem sigil_of_not_mem (h : '$' ∉ n) : sigil n = [] := by
  cases n with
  | nil => rfl
  | cons c n => exact sigil_cons_of_ne (fun e => h (e ▸ List.mem_cons_self)) n

theorem bare_of_not_mem (h : '$' ∉ n) : bare n = n := by
  have hn := sigil_append_bare n
  rwa [sigil_of_not_mem h] at hn

/-- A sigil in front of a text without one is its sigil, and the text its bare name. -/
theorem sigil_sigil_append (h : '$' ∉ o) : sigil (sigil n ++ o) = sigil n := by
  rcases sigil_eq_nil_or n with hn | hn
  · rw [hn]; exact sigil_of_not_mem h
  · rw [hn]; rfl

theorem bare_sigil_append (h : '$' ∉ o) : bare (sigil n ++ o) = o := by
  rcases sigil_eq_nil_or n with hn | hn
  · rw [hn]; exact bare_of_not_mem h
  · rw [hn]; rfl

theorem isVariable_eq (n : Text) : isVariable n = decide (sigil n = ['$']) := by
  cases n with
  | nil => rfl
  | cons c n =>
    by_cases hc : c = '$'
    · subst hc; rfl
    · rw [sigil_cons_of_ne hc]
      simp [isVariable, Text.startsWith, List.isPrefixOf, Ne.symm hc]

/-- A name has no sigil in it. -/
theorem not_mem_of_isName (h : Reference.isName n = true) : '$' ∉ n := by
  intro hm
  simp only [Reference.isName, Bool.and_eq_true, List.all_eq_true] at h
  exact absurd (h.2 '$' hm) (by decide)

/-- A member name is a name behind a sigil, or without one. -/
theorem isMemberName_eq (n : Text) : Reference.isMemberName n = Reference.isName (bare n) := by
  cases n with
  | nil => rfl
  | cons c n =>
    by_cases hc : c = '$'
    · subst hc; rfl
    · rw [bare_cons_of_ne hc]
      unfold Reference.isMemberName
      split
      · rename_i m heq; exact absurd (List.cons.inj heq).1 hc
      · rfl

/-- A member name has no sigil but the one in front. -/
theorem not_mem_bare_of_isMemberName (h : Reference.isMemberName n = true) : '$' ∉ bare n := by
  rw [isMemberName_eq] at h
  exact not_mem_of_isName h

/-! ## Prefixes -/

theorem stripPrefix?_some_eq_some_iff :
    stripPrefix? (some p) n = some o ↔ ∃ rest, p ++ rest = bare n ∧ sigil n ++ rest = o := by
  simp only [stripPrefix?, Option.map_eq_some_iff, List.isPrefixOf?_eq_some_iff_append_eq]

/-- A prefix comes off exactly the names whose bare part begins with it. -/
theorem isSome_stripPrefix?_some : (stripPrefix? (some p) n).isSome = true ↔ p <+: bare n := by
  simp only [stripPrefix?, Option.isSome_map, List.isSome_isPrefixOf?_eq_isPrefixOf, List.isPrefixOf_iff_prefix]

/-- Taking a prefix off keeps the sigil and makes none. -/
theorem sigil_of_stripPrefix? (hn : '$' ∉ bare n) (h : stripPrefix? pre n = some o) :
    sigil o = sigil n ∧ '$' ∉ bare o := by
  cases pre with
  | none => cases h; exact ⟨rfl, hn⟩
  | some p =>
    obtain ⟨rest, hrest, rfl⟩ := stripPrefix?_some_eq_some_iff.1 h
    have hr : '$' ∉ rest := fun hm => hn (hrest ▸ List.mem_append_right p hm)
    exact ⟨sigil_sigil_append hr, by rw [bare_sigil_append hr]; exact hr⟩

/-- A prefix comes off the front of the bare name. -/
theorem bare_of_stripPrefix? (hn : '$' ∉ bare n) (h : stripPrefix? pre n = some o) :
    bare n = pre.getD [] ++ bare o := by
  cases pre with
  | none => cases h; rfl
  | some p =>
    obtain ⟨rest, hrest, rfl⟩ := stripPrefix?_some_eq_some_iff.1 h
    have hr : '$' ∉ rest := fun hm => hn (hrest ▸ List.mem_append_right p hm)
    rw [bare_sigil_append hr]
    exact hrest.symm

/-- A prefix goes back onto the name that it came off. -/
theorem addPrefix_of_stripPrefix? (hn : '$' ∉ bare n) (h : stripPrefix? pre n = some o) : addPrefix pre o = n := by
  cases pre with
  | none => cases h; rfl
  | some p =>
    obtain ⟨rest, hrest, rfl⟩ := stripPrefix?_some_eq_some_iff.1 h
    have hr : '$' ∉ rest := fun hm => hn (hrest ▸ List.mem_append_right p hm)
    show sigil (sigil n ++ rest) ++ p ++ bare (sigil n ++ rest) = n
    rw [sigil_sigil_append hr, bare_sigil_append hr, List.append_assoc, hrest, sigil_append_bare]

/-- A prefix stands behind the sigil. -/
theorem sigil_addPrefix (hp : '$' ∉ p) (n : Text) : sigil (addPrefix (some p) n) = sigil n := by
  show sigil (sigil n ++ p ++ bare n) = sigil n
  rcases sigil_eq_nil_or n with hn | hn
  · cases p with
    | nil => rw [List.append_nil, sigil_append_bare]
    | cons c p =>
      rw [hn]
      exact sigil_cons_of_ne (fun e => hp (e ▸ List.mem_cons_self)) _
  · rw [hn]; rfl

theorem bare_addPrefix (hp : '$' ∉ p) (n : Text) : bare (addPrefix (some p) n) = p ++ bare n := by
  have h : sigil n ++ bare (addPrefix (some p) n) = sigil n ++ (p ++ bare n) := by
    rw [← sigil_addPrefix hp n, sigil_append_bare, sigil_addPrefix hp n, ← List.append_assoc]
    rfl
  exact List.append_cancel_left h

/-- A prefix comes off the name that it was put on. -/
theorem stripPrefix?_addPrefix (hp : '$' ∉ p) (n : Text) : stripPrefix? (some p) (addPrefix (some p) n) = some n := by
  refine stripPrefix?_some_eq_some_iff.2 ⟨bare n, (bare_addPrefix hp n).symm, ?_⟩
  rw [sigil_addPrefix hp, sigil_append_bare]

end SassModules.Name
