import SassModules.Json.Writer
import SassModules.Proofs.Reading

/-!
# Written JSON is read back

What is written for a value is a text of the grammar that spells it (`WithoutNumbers.spells`), so it is read back
(`ofText?_render`). The escape of a character outside the basic plane is a pair of surrogates, and no other character is
written as half of a pair (`SpellsPoints.escape`). Numbers are kept as they are written and need not be numbers of JSON, so
values with numbers are left out.
-/

namespace SassModules.Json

/-! ## Texts in quotes -/

theorem isHexDigit_digitChar (k : Nat) : IsHexDigit (Nat.digitChar (k % 16)) (k % 16) :=
  ⟨Nat.mod_lt _ (by decide), Or.inl rfl⟩

theorem spellsUnit_unitEscape {n : Nat} (hn : n < 65536) : SpellsUnit (unitEscape n) n := by
  have hunit := SpellsUnit.mk (isHexDigit_digitChar (n / 16 / 16 / 16)) (isHexDigit_digitChar (n / 16 / 16))
    (isHexDigit_digitChar (n / 16)) (isHexDigit_digitChar n)
  have hvalue : 4096 * (n / 16 / 16 / 16 % 16) + 256 * (n / 16 / 16 % 16) + 16 * (n / 16 % 16) + n % 16 = n := by omega
  rw [hvalue] at hunit
  exact hunit

/-- A character is spelled by its escape. -/
theorem SpellsPoints.escape {t : Text} {ps : List Nat} (h : SpellsPoints t ps) (c : Char) :
    SpellsPoints (escape c ++ t) (c.toNat :: ps) := by
  have hvalid : c.toNat < 0xD800 ∨ 0xDFFF < c.toNat ∧ c.toNat < 0x110000 := c.valid
  unfold Json.escape
  split_ifs with h₁ h₂ h₃ h₄ h₅ h₆ h₇ hplain hunit
  · rw [h₁]; exact .short (by decide) h
  · rw [h₂]; exact .short (by decide) h
  · rw [h₃]; exact .short (by decide) h
  · rw [h₄]; exact .short (by decide) h
  · rw [h₅]; exact .short (by decide) h
  · rw [h₆]; exact .short (by decide) h
  · rw [h₇]; exact .short (by decide) h
  · exact .plain h₁ h₂ hplain.1 h
  · exact .unit (spellsUnit_unitEscape hunit) (fun hhigh => by omega) h
  · have hcode : 0x10000 + 1024 * (0xD800 + (c.toNat - 0x10000) / 1024 - 0xD800) +
        (0xDC00 + (c.toNat - 0x10000) % 1024 - 0xDC00) = c.toNat := by omega
    have hhigh := spellsUnit_unitEscape (n := 0xD800 + (c.toNat - 0x10000) / 1024) (by omega)
    have hlow := spellsUnit_unitEscape (n := 0xDC00 + (c.toNat - 0x10000) % 1024) (by omega)
    have hpair := SpellsPoints.pair hhigh (by omega) hlow (by omega) h
    rw [hcode] at hpair
    exact hpair

theorem spellsPoints_flatMap_escape (t : Text) : SpellsPoints (t.flatMap escape) (t.map Char.toNat) := by
  induction t with
  | nil => exact .nil
  | cons c t ih => exact ih.escape c

theorem spellsString_quote (t : Text) : SpellsString (quote t) (.string t) := .text (spellsPoints_flatMap_escape t)

/-! ## Parts between brackets -/

theorem isBlank_newLine (indent level : Nat) : IsBlank (newLine indent level) := by
  intro c hc
  rcases List.mem_cons.1 hc with rfl | hc
  · decide
  · rw [List.eq_of_mem_replicate hc]
    decide

/-- Parts between brackets, with commas between them and white space wherever it may stand. -/
theorem bracket_eq {parts : List Text} (h : parts ≠ []) (indent : Option Nat) (level : Nat) (opening closing : Char) :
    ∃ lead gap trail, IsBlank lead ∧ IsBlank gap ∧ IsBlank trail ∧
      bracket indent level opening closing parts =
        opening :: (lead ++ ((',' :: gap).intercalate parts ++ trail) ++ [closing]) := by
  obtain ⟨p, ps, rfl⟩ := List.exists_cons_of_ne_nil h
  cases indent with
  | none => exact ⟨[], [' '], [], .nil, by simp [IsBlank, spaces], .nil, by simp [bracket, Text.join]⟩
  | some n =>
    refine ⟨newLine n (level + 1), newLine n (level + 1), newLine n level, isBlank_newLine _ _,
      isBlank_newLine _ _, isBlank_newLine _ _, ?_⟩
    simp [bracket]

section Parts

variable {gap trail : Text}

theorem spells_items {write : Json → Text} (hgap : IsBlank gap) (htrail : IsBlank trail) :
    ∀ {lead : Text} {v : Json} {vs : List Json}, IsBlank lead → (∀ w ∈ v :: vs, Spells (write w) (.value w)) →
      Spells (lead ++ ((',' :: gap).intercalate ((v :: vs).map write) ++ trail)) (.items (v :: vs))
  | lead, v, [], hlead, h => by
    simpa using Spells.item hlead (h v List.mem_cons_self) htrail
  | lead, v, w :: vs, hlead, h => by
    have hrest := spells_items hgap htrail hgap fun w hw => h w (List.mem_cons_of_mem _ hw)
    simpa using Spells.cons hlead (h v List.mem_cons_self) .nil hrest

/-- A field as it is written. -/
def renderField (indent : Option Nat) (level : Nat) (f : Text × Json) : Text :=
  quote f.1 ++ ": ".toList ++ renderAt indent level f.2

theorem spellsName_quote {lead : Text} (hlead : IsBlank lead) (name : Text) :
    SpellsName (lead ++ (quote name ++ ": ".toList)) (.string name) := by
  have hspace : IsBlank [' '] := by simp [IsBlank, spaces]
  exact .mk hlead (spellsString_quote name) .nil hspace

theorem spells_fields {indent : Option Nat} {level : Nat} (hgap : IsBlank gap) (htrail : IsBlank trail) :
    ∀ {lead : Text} {f : Text × Json} {fs : List (Text × Json)}, IsBlank lead →
      (∀ g ∈ f :: fs, Spells (renderAt indent level g.2) (.value g.2)) →
      Spells (lead ++ ((',' :: gap).intercalate ((f :: fs).map (renderField indent level)) ++ trail)) (.fields (f :: fs))
  | lead, f, [], hlead, h => by
    simpa only [List.map_cons, List.map_nil, List.intercalate_singleton, renderField, List.append_assoc, text?,
      Option.map_some, Option.toList_some, Prod.mk.eta] using
      Spells.field (spellsName_quote hlead f.1) (h f List.mem_cons_self) htrail
  | lead, f, g :: fs, hlead, h => by
    have hrest := spells_fields hgap htrail hgap fun w hw => h w (List.mem_cons_of_mem _ hw)
    simpa only [List.map_cons, List.intercalate_cons_cons, renderField, List.append_assoc, List.cons_append,
      List.nil_append, text?, Option.map_some, Option.toList_some, Prod.mk.eta] using
      Spells.consField (spellsName_quote hlead f.1) (h f List.mem_cons_self) .nil hrest

end Parts

/-! ## Values -/

/-- No number stands anywhere in the value. -/
inductive WithoutNumbers : Json → Prop
  | null : WithoutNumbers .null
  | bool (b : Bool) : WithoutNumbers (.bool b)
  | string (t : Text) : WithoutNumbers (.string t)
  | array {items : List Json} : (∀ v ∈ items, WithoutNumbers v) → WithoutNumbers (.array items)
  | object {fields : List (Text × Json)} : (∀ f ∈ fields, WithoutNumbers f.2) → WithoutNumbers (.object fields)

section Values

variable {indent : Option Nat} {level : Nat}

theorem renderItems_eq_map : ∀ (vs : List Json), renderItems indent level vs = vs.map (renderAt indent level)
  | [] => rfl
  | v :: vs => congrArg (renderAt indent level v :: ·) (renderItems_eq_map vs)

theorem renderFields_eq_map : ∀ (fs : List (Text × Json)),
    renderFields indent level fs = fs.map (renderField indent level)
  | [] => rfl
  | f :: fs => congrArg (renderField indent level f :: ·) (renderFields_eq_map fs)

theorem renderAt_array (vs : List Json) : renderAt indent level (.array vs) =
    bracket indent level '[' ']' (vs.map (renderAt indent (level + 1))) :=
  congrArg (bracket indent level '[' ']') (renderItems_eq_map vs)

theorem renderAt_object (fs : List (Text × Json)) : renderAt indent level (.object fs) =
    bracket indent level '{' '}' (fs.map (renderField indent (level + 1))) :=
  congrArg (bracket indent level '{' '}') (renderFields_eq_map fs)

/-- A value without numbers is spelled by its text, at every level. -/
theorem WithoutNumbers.spells {v : Json} (h : WithoutNumbers v) : ∀ level, Spells (renderAt indent level v) (.value v) := by
  induction h with
  | null => exact fun _ => .word (.head _)
  | bool b =>
    cases b with
    | true => exact fun _ => .word (.tail _ (.head _))
    | false => exact fun _ => .word (.tail _ (.tail _ (.head _)))
  | string t => exact fun _ => .string (spellsString_quote t)
  | @array vs h ih =>
    intro level
    rw [renderAt_array]
    cases vs with
    | nil => exact .emptyArray .nil
    | cons v vs =>
      obtain ⟨lead, gap, trail, hlead, hgap, htrail, htext⟩ :=
        bracket_eq (mt List.map_eq_nil_iff.1 (List.cons_ne_nil v vs)) indent level '[' ']'
      rw [htext]
      exact .array (spells_items hgap htrail hlead fun w hw => ih w hw (level + 1))
  | @object fs h ih =>
    intro level
    rw [renderAt_object]
    cases fs with
    | nil => exact .emptyObject .nil
    | cons f fs =>
      obtain ⟨lead, gap, trail, hlead, hgap, htrail, htext⟩ :=
        bracket_eq (mt List.map_eq_nil_iff.1 (List.cons_ne_nil f fs)) indent level '{' '}'
      rw [htext]
      exact .object (spells_fields hgap htrail hlead fun w hw => ih w hw (level + 1))

end Values

/-- A value without numbers is read back from its text, whatever the indent. -/
theorem ofText?_render {v : Json} (h : WithoutNumbers v) (indent : Option Nat) : ofText? (render indent v) = some v :=
  ofText?_eq_some_iff.2 ⟨[], _, [], .nil, h.spells 0, .nil, (List.append_nil _).symm⟩

end SassModules.Json
