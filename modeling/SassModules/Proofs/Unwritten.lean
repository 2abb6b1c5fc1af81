import SassModules.Proofs.Accepting

/-!
# What a call leaves to write

Inside the arguments of a call the parameters are offered that are not written yet. A parameter counts as written when
the text before the cursor binds its name somewhere (`Binds`), so that a variable of the same line, or an argument of an
earlier call, hides it as well. `candidates_unwritten` says what is offered for every cursor in a call, and when it is
what the call itself leaves to write: exactly if every parameter that is bound in front of the call is bound in its
arguments too.

Two scanners look at the same text. One finds the first call that is open at its end (`IsOpenCall`,
`Context.of?_eq_mixinArgument_iff`), the other all bindings (`mem_writtenArguments_iff`). No binding reaches over an `@`
or a parenthesis (`binds_append_cons`) and the head of a call holds no sigil, so each binding stands either in front of
the call or in its arguments (`OpensCall.binds_iff`).
-/

namespace SassModules

open Session

/-! ## Bindings in a text -/

/-- Somewhere in the text stands `$name`, white space and a colon. -/
def Binds (text name : Text) : Prop := ∃ column, BindsAt text column ('$' :: name)

section Binds

variable {text front rest name : Text} {column : Nat} {c : Char}

theorem BindsAt.lt_length (h : BindsAt text column name) : column < text.length := by
  obtain ⟨b, t, -, hdrop⟩ := h
  exact List.length_lt_of_drop_ne_nil (by rw [hdrop]; simp)

theorem bindsAt_iff : BindsAt text column name ↔
    ∃ found, Pattern.bindingOf name (text.drop column) = some found := by
  constructor
  · rintro ⟨b, t, hblank, hdrop⟩
    exact ⟨(t, t), Pattern.bindingOf_eq_some_iff.2 ⟨rfl, b, hblank, hdrop.symm⟩⟩
  · rintro ⟨⟨t, r⟩, hfound⟩
    obtain ⟨-, b, hblank, hdrop⟩ := Pattern.bindingOf_eq_some_iff.1 hfound
    exact ⟨b, t, hblank, hdrop.symm⟩

/-- A text binds a name exactly when the search for it finds something. -/
theorem binds_iff_occurs : Binds text name ↔ (Pattern.bindingOf ('$' :: name)).occurs text = true := by
  constructor
  · rintro ⟨column, hbinds⟩
    obtain ⟨found, hfound⟩ := bindsAt_iff.1 hbinds
    obtain ⟨h, hh, -⟩ := Pattern.firstHitFrom?_le text 0 column hbinds.lt_length hfound
    exact Option.isSome_iff_exists.2 ⟨h, hh⟩
  · intro hoccurs
    obtain ⟨h, hh⟩ := Option.isSome_iff_exists.1 hoccurs
    obtain ⟨k, r, -, hk⟩ := Pattern.exists_of_firstHitFrom? text 0 hh
    exact ⟨k, bindsAt_iff.2 ⟨_, hk⟩⟩

instance : Decidable (Binds text name) := decidable_of_iff _ binds_iff_occurs.symm

theorem not_binds_of_not_mem (h : '$' ∉ text) : ¬ Binds text name := by
  rintro ⟨column, b, t, -, hdrop⟩
  exact h (List.mem_of_mem_drop (by rw [hdrop]; exact List.mem_cons_self))

/-- A beginning of a text ends in front of a character that it does not hold. -/
theorem exists_append_of_append_cons {word t : Text} (hc : c ∉ word) (h : front ++ c :: rest = word ++ t) :
    ∃ t', front = word ++ t' := by
  rcases List.append_eq_append_iff.1 h with ⟨beyond, hword, hrest⟩ | ⟨t', hfront, -⟩
  · cases beyond with
    | nil => exact ⟨[], by rw [hword]; simp⟩
    | cons c' beyond =>
      obtain rfl := (List.cons.inj hrest).1
      exact absurd (hword ▸ List.mem_append_right _ List.mem_cons_self) hc
  · exact ⟨t', hfront⟩

/-- No binding reaches over a character that is neither white space nor a colon nor part of the name. -/
theorem binds_append_cons (hname : c ∉ '$' :: name) (hblank : Text.isBlank c = false) (hcolon : c ≠ ':') :
    Binds (front ++ c :: rest) name ↔ Binds front name ∨ Binds rest name := by
  constructor
  · rintro ⟨column, b, t, hb, hdrop⟩
    rcases Nat.lt_or_ge front.length column with hlt | hle
    · obtain ⟨k, rfl⟩ := Nat.exists_eq_add_of_lt hlt
      rw [Nat.add_assoc, List.drop_length_add_append, List.drop_succ_cons] at hdrop
      exact Or.inr ⟨k, b, t, hb, hdrop⟩
    · -- the binding begins in front of the character, which is none of its own
      have hmem : c ∉ '$' :: (name ++ (b ++ [':'])) := by
        simp only [List.mem_cons, List.mem_append, List.not_mem_nil, or_false, not_or] at hname ⊢
        refine ⟨hname.1, hname.2, fun hc => ?_, hcolon⟩
        rw [hb c hc] at hblank
        cases hblank
      rw [List.drop_append_of_le_length hle] at hdrop
      have hsplit : front.drop column ++ c :: rest = '$' :: (name ++ (b ++ [':'])) ++ t := by rw [hdrop]; simp
      obtain ⟨t', hfront⟩ := exists_append_of_append_cons hmem hsplit
      exact Or.inl ⟨column, b, t', hb, by rw [hfront]; simp⟩
  · rintro (⟨column, hbinds⟩ | ⟨column, b, t, hb, hdrop⟩)
    · have hle := hbinds.lt_length.le
      obtain ⟨b, t, hb, hdrop⟩ := hbinds
      refine ⟨column, b, t ++ c :: rest, hb, ?_⟩
      rw [List.drop_append_of_le_length hle, hdrop]
      simp
    · refine ⟨front.length + (column + 1), b, t, hb, ?_⟩
      rw [List.drop_length_add_append, List.drop_succ_cons, hdrop]

end Binds

/-! ## Calls that are open -/

/-- The mixin of a call as it is written, behind its alias if it has one. -/
def calleeText (aliasName : Option Text) (mixin : Text) : Text :=
  match aliasName with
  | none => mixin
  | some a => a ++ '.' :: mixin

/-- Behind `front` the text holds a call that is open at its end: the keyword, white space, the mixin, white space, the
opening parenthesis and arguments without a closing one. -/
structure OpensCall (aliasName : Option Text) (mixin text front arguments : Text) : Prop where
  aliasIsName : ∀ a ∈ aliasName, Reference.isName a = true
  mixinIsName : Reference.isName mixin = true
  written : ∃ b b', b ≠ [] ∧ (∀ c ∈ b, Text.isBlank c = true) ∧ (∀ c ∈ b', Text.isBlank c = true) ∧
    text = front ++ ("@include".toList ++ (b ++ (calleeText aliasName mixin ++ (b' ++ '(' :: arguments))))
  isOpen : ')' ∉ arguments

/-- The first of the calls that are open at the end of the text. -/
structure IsOpenCall (aliasName : Option Text) (mixin text front arguments : Text) : Prop where
  opens : OpensCall aliasName mixin text front arguments
  first : ∀ a x front' arguments', OpensCall a x text front' arguments' → front.length ≤ front'.length

namespace Pattern

variable {aliasName : Option Text} {mixin s rest : Text}

/-- The mixin of a call, behind its alias if a dot follows the first word. -/
def callee : Pattern (Option Text × Text) := fun s => do
  let first ← word s
  if first.2.head? = some '.' then (word first.2.tail).map fun r => ((some first.1, r.1), r.2)
  else some ((none, first.1), first.2)

theorem callee_eq_some_iff : callee s = some ((aliasName, mixin), rest) ↔
    (∀ a ∈ aliasName, Reference.isName a = true) ∧ Reference.isName mixin = true ∧
      calleeText aliasName mixin ++ rest = s ∧ (∀ c ∈ rest.head?, Text.isNameChar c = false) ∧
      (aliasName = none → rest.head? ≠ some '.') := by
  simp only [callee, Option.bind_eq_bind, Option.bind_eq_some_iff, Prod.exists, word_eq_some_iff]
  constructor
  · rintro ⟨first, t, ⟨hfirst, rfl, hend⟩, h⟩
    split at h
    · rename_i hdot
      obtain ⟨⟨x, y⟩, hword, heq⟩ := Option.map_eq_some_iff.1 h
      cases heq
      obtain ⟨t, rfl⟩ : ∃ t', t = '.' :: t' := List.head?_eq_some_iff.1 hdot
      obtain ⟨hx, rfl, hend'⟩ := word_eq_some_iff.1 hword
      refine ⟨?_, hx, by simp [calleeText], hend', nofun⟩
      rintro _ ⟨⟩
      exact hfirst
    · rename_i hdot
      cases h
      exact ⟨nofun, hfirst, rfl, hend, fun _ => hdot⟩
  · rintro ⟨halias, hmixin, rfl, hend, hdot⟩
    cases aliasName with
    | none =>
      refine ⟨mixin, rest, ⟨hmixin, rfl, hend⟩, ?_⟩
      rw [if_neg (hdot rfl)]
    | some a =>
      refine ⟨a, '.' :: (mixin ++ rest), ⟨halias a rfl, by simp [calleeText], ?_⟩, ?_⟩
      · rintro _ ⟨⟩
        decide
      · rw [if_pos List.head?_cons, List.tail_cons, word_eq_some_iff.2 ⟨hmixin, rfl, hend⟩]
        rfl

/-- An open call is read in four steps: the keyword with white space, the mixin, the parenthesis, the arguments. -/
theorem openCall_eq (s : Text) : openCall s = (do
    let u ← blanks1 (← literal "@include" s)
    let r ← callee u
    let arguments ← literal "(" (blanks r.2)
    if ')' ∈ arguments then none else some (r.1, [])) := by
  have hlist (value : Option Text × Text) (arguments : Text) :
      ((guard ((!arguments.contains ')') = true) : Option Unit).bind fun _ => some (value, ([] : Text))) =
        if ')' ∈ arguments then none else some (value, []) := by
    by_cases h : ')' ∈ arguments <;> simp [guard, h]
  unfold openCall callee
  simp only [Option.bind_eq_bind, hlist, Option.bind_assoc]
  congr 1
  funext t
  congr 1
  funext u
  congr 1
  funext first
  split
  · rename_i v heq
    rw [heq, if_pos List.head?_cons, List.tail_cons]
  · rename_i hdot
    rw [if_neg]
    intro hhead
    obtain ⟨v, hv⟩ := List.head?_eq_some_iff.1 hhead
    exact hdot v hv

/-- What is read as an open call is one from the start of the text on. -/
theorem openCall_eq_some_iff : openCall s = some ((aliasName, mixin), rest) ↔
    rest = [] ∧ ∃ arguments, OpensCall aliasName mixin s [] arguments := by
  have hparen {u t : Text} : literal "(" (blanks u) = some t ↔
      ∃ b, (∀ c ∈ b, Text.isBlank c = true) ∧ b ++ '(' :: t = u := sign_eq_some_iff rfl (by decide)
  simp only [openCall_eq, Option.bind_eq_bind, Option.bind_eq_some_iff, Prod.exists, hparen, literal_eq_some_iff,
    blanks1_eq_some_iff]
  constructor
  · rintro ⟨t, rfl, u, ⟨b, hb, hblank, rfl, -⟩, a, x, r, hcallee, arguments, ⟨b', hblank', rfl⟩, h⟩
    split at h
    · cases h
    · rename_i hopen
      cases h
      obtain ⟨halias, hmixin, rfl, -, -⟩ := callee_eq_some_iff.1 hcallee
      exact ⟨rfl, arguments, halias, hmixin, ⟨b, b', hb, hblank, hblank', rfl⟩, hopen⟩
  · rintro ⟨rfl, arguments, halias, hmixin, ⟨b, b', hb, hblank, hblank', rfl⟩, hopen⟩
    -- the mixin ends at white space or at the parenthesis
    have hend : ∀ c ∈ (b' ++ '(' :: arguments).head?, Text.isNameChar c = false ∧ c ≠ '.' := by
      intro c hc
      rcases isBlank_or_eq_of_mem_head? hblank' hc with hc | rfl
      · refine ⟨Text.isNameChar_of_isBlank hc, ?_⟩
        rintro rfl
        cases hc
      · decide
    refine ⟨_, rfl, _, ⟨b, hb, hblank, rfl, ?_⟩, aliasName, mixin, _, ?_, arguments, ⟨b', hblank', rfl⟩, ?_⟩
    · cases aliasName with
      | none => exact isBlank_head_append hmixin _
      | some a =>
        rw [calleeText, List.append_assoc]
        exact isBlank_head_append (halias a rfl) _
    · exact callee_eq_some_iff.2 ⟨halias, hmixin, rfl, fun c hc => (hend c hc).1, fun _ hdot => (hend _ hdot).2 rfl⟩
    · rw [if_neg hopen]

end Pattern

section OpenCall

variable {aliasName : Option Text} {mixin text front arguments : Text}

/-- A call is open behind a front exactly when it is read there. -/
theorem opensCall_append_iff (front : Text) {tail : Text} :
    (∃ arguments, OpensCall aliasName mixin (front ++ tail) front arguments) ↔
      Pattern.openCall tail = some ((aliasName, mixin), []) := by
  rw [Pattern.openCall_eq_some_iff]
  constructor
  · rintro ⟨arguments, halias, hmixin, ⟨b, b', hb, hblank, hblank', heq⟩, hopen⟩
    obtain rfl := List.append_cancel_left heq
    exact ⟨rfl, arguments, halias, hmixin, ⟨b, b', hb, hblank, hblank', rfl⟩, hopen⟩
  · rintro ⟨-, arguments, halias, hmixin, ⟨b, b', hb, hblank, hblank', rfl⟩, hopen⟩
    exact ⟨arguments, halias, hmixin, ⟨b, b', hb, hblank, hblank', rfl⟩, hopen⟩

theorem OpensCall.openCall_drop (h : OpensCall aliasName mixin text front arguments) :
    front.length < text.length ∧ Pattern.openCall (text.drop front.length) = some ((aliasName, mixin), []) := by
  obtain ⟨b, b', -, -, -, heq⟩ := h.written
  rw [heq, List.drop_left]
  rw [heq] at h
  exact ⟨by simp, (opensCall_append_iff front).1 ⟨arguments, h⟩⟩

/-- A call that is open is the first such call if none is read in front of it. -/
theorem OpensCall.isOpenCall (h : OpensCall aliasName mixin text front arguments)
    (hnone : ∀ k < front.length, Pattern.openCall (text.drop k) = none) :
    IsOpenCall aliasName mixin text front arguments where
  opens := h
  first a x front' arguments' h' := by
    by_contra hlt
    have hread := h'.openCall_drop.2
    rw [hnone front'.length (Nat.lt_of_not_le hlt)] at hread
    cases hread

/-- The first call that is open is one call. -/
theorem IsOpenCall.call_eq {aliasName' : Option Text} {mixin' front' arguments' : Text}
    (h : IsOpenCall aliasName mixin text front arguments) (h' : IsOpenCall aliasName' mixin' text front' arguments') :
    (aliasName, mixin) = (aliasName', mixin') := by
  have hlength : front.length = front'.length :=
    Nat.le_antisymm (h.first _ _ _ _ h'.opens) (h'.first _ _ _ _ h.opens)
  have hread := h.opens.openCall_drop.2
  rw [hlength, h'.opens.openCall_drop.2] at hread
  exact (Prod.mk.inj (Option.some.inj hread)).1.symm

/-- The leftmost match is the first call that is open. -/
theorem exists_isOpenCall_of_firstHit? {hit : Hit (Option Text × Text)}
    (h : Pattern.openCall.firstHit? text = some hit) :
    ∃ front arguments, IsOpenCall hit.value.1 hit.value.2 text front arguments := by
  obtain ⟨k, rest, hstart, hk⟩ := Pattern.exists_of_firstHitFrom? text 0 h
  obtain rfl := (Pattern.openCall_eq_some_iff.1 hk).1
  obtain ⟨arguments, hopens⟩ := (opensCall_append_iff (text.take k)).2 hk
  rw [List.take_append_drop] at hopens
  refine ⟨text.take k, arguments, hopens, fun a x front' arguments' h' => ?_⟩
  obtain ⟨hlt, hread⟩ := h'.openCall_drop
  obtain ⟨hit', hhit', hle⟩ := Pattern.firstHitFrom?_le text 0 front'.length hlt hread
  obtain rfl := Option.some.inj (h.symm.trans hhit')
  rw [List.length_take]
  omega

/-- The text before a cursor counts as the arguments of a call exactly when the call is the first that is open at its
end. -/
theorem Context.of?_eq_mixinArgument_iff : Context.of? text = some (.mixinArgument aliasName mixin) ↔
    ∃ front arguments, IsOpenCall aliasName mixin text front arguments := by
  constructor
  · intro h
    have harguments : Context.mixinArgument? text = some (.mixinArgument aliasName mixin) := Context.classifier_of_of? h
    obtain ⟨hit, hhit, heq⟩ := Option.map_eq_some_iff.1 harguments
    obtain ⟨rfl, rfl⟩ := Context.mixinArgument.inj heq
    exact exists_isOpenCall_of_firstHit? hhit
  · rintro ⟨front, arguments, hcall⟩
    obtain ⟨hlt, hread⟩ := hcall.opens.openCall_drop
    obtain ⟨hit, hhit, -⟩ := Pattern.firstHitFrom?_le text 0 front.length hlt hread
    obtain ⟨front', arguments', hcall'⟩ := exists_isOpenCall_of_firstHit? hhit
    obtain ⟨rfl, rfl⟩ := Prod.mk.inj (hcall.call_eq hcall')
    have harguments : Context.mixinArgument? text = some (.mixinArgument hit.value.1 hit.value.2) := by
      rw [Context.mixinArgument?, Pattern.firstHit?, hhit, Option.map_some]
    rw [Context.of?, harguments]
    rfl

/-- No sigil stands in the mixin of a call or in its alias. -/
theorem OpensCall.sigil_not_mem_calleeText (h : OpensCall aliasName mixin text front arguments) :
    '$' ∉ calleeText aliasName mixin := by
  cases aliasName with
  | none => exact Name.not_mem_of_isName h.mixinIsName
  | some a =>
    simp only [calleeText, List.mem_append, List.mem_cons, not_or]
    exact ⟨Name.not_mem_of_isName (h.aliasIsName a rfl), by decide, Name.not_mem_of_isName h.mixinIsName⟩

/-- A text that ends in a call binds a name in front of the call or in its arguments. -/
theorem OpensCall.binds_iff {name : Text} (h : OpensCall aliasName mixin text front arguments)
    (hname : Reference.isName name = true) : Binds text name ↔ Binds front name ∨ Binds arguments name := by
  obtain ⟨b, b', -, hblank, hblank', rfl⟩ := h.written
  have hout : ∀ c, Text.isNameChar c = false → c ≠ '$' → c ∉ '$' :: name := fun c hc hsigil =>
    List.not_mem_cons_of_ne_of_not_mem hsigil (Pattern.not_mem_of_isName hname hc)
  have hgap : ∀ gap : Text, (∀ c ∈ gap, Text.isBlank c = true) → '$' ∉ gap := fun gap hgap hm =>
    absurd (hgap '$' hm) (by decide)
  have hhead : '$' ∉ "include".toList ++ (b ++ (calleeText aliasName mixin ++ b')) := by
    simp only [List.mem_append, not_or]
    exact ⟨by decide, hgap b hblank, h.sigil_not_mem_calleeText, hgap b' hblank'⟩
  have hsplit : front ++ ("@include".toList ++ (b ++ (calleeText aliasName mixin ++ (b' ++ '(' :: arguments)))) =
      front ++ '@' :: (("include".toList ++ (b ++ (calleeText aliasName mixin ++ b'))) ++ '(' :: arguments) := by
    simp
  rw [hsplit, binds_append_cons (hout _ (by decide) (by decide)) (by decide) (by decide),
    binds_append_cons (hout _ (by decide) (by decide)) (by decide) (by decide)]
  simp only [not_binds_of_not_mem hhead, false_or]

end OpenCall

/-! ## The parameters of a mixin -/

theorem Parameter.isName_of_mem_readList? {lines : List Text} {line paren column : Nat} {ps : List Parameter}
    {q : Parameter} (h : readList? lines line paren column = some ps) (hq : q ∈ ps) :
    Reference.isName q.name = true := by
  obtain ⟨t, -, rfl⟩ := Option.map_eq_some_iff.1 h
  obtain ⟨⟨name, default⟩, hread, rfl⟩ := List.mem_map.1 hq
  rw [distinct_eq_firstOf] at hread
  obtain ⟨piece, -, hpiece⟩ := List.mem_filterMap.1 (of_mem_firstOf hread).1
  exact (readPiece_eq_some hpiece).1

theorem Mixin.isName_of_mem_parameters {content name : Text} {file : Path} {m : Mixin} {q : Parameter}
    (h : find? content name file = some m) (hq : q ∈ m.parameters) : Reference.isName q.name = true := by
  rcases parameters_eq_nil_or h with hnil | ⟨line, paren, column, hps⟩
  · rw [hnil] at hq
    cases hq
  · exact Parameter.isName_of_mem_readList? hps hq

namespace Completion

variable {includePaths : List Path} {w : Workspace} {d : Document} {p : Position} {s : Session}
  {aliasName : Option Text} {mixin text : Text} {m : Mixin}

/-- The names that count as written in a text are those that it binds. -/
theorem mem_writtenArguments_iff {n : Text} (hn : Reference.isName n = true) :
    n ∈ writtenArguments text ↔ Binds text n := by
  have hfind : ((Pattern.binding.hits text).find? fun h => h.value.1 == '$' :: n).isSome =
      (Pattern.bindingOf ('$' :: n)).occurs text := by
    have h := congrArg Option.isSome (Pattern.hitsFrom_find? hn text 0 0 (by simp))
    rw [Option.isSome_map, Option.isSome_map] at h
    exact h
  rw [binds_iff_occurs, ← hfind, List.find?_isSome, writtenArguments, List.mem_map]
  refine exists_congr fun h => and_congr_right fun hh => ?_
  obtain ⟨rest, hbinding, -⟩ := Pattern.exists_of_mem_hits hh
  obtain ⟨-, n', b, hvalue, -⟩ := Pattern.binding_eq_some_iff.1 hbinding
  simp [hvalue, Name.bare]

/-- The mixin that a call names: one of the document, or a member of the module that its alias leads to. -/
inductive Calls (w : Workspace) (s : Session) (d : Document) (mixin : Text) (m : Mixin) : Option Text → Prop
  | own (found : Mixin.find? d.text mixin d.file = some m) : Calls w s d mixin m none
  | used (a : Text) (module : Path) (leads : answer (w.resolveAlias d.text a d.file) s = .ok (some module))
      (found : answer (w.resolveMember module mixin) s = .ok (some (.mixin m))) : Calls w s d mixin m (some a)

theorem Calls.answer_calledMixin (h : Calls w s d mixin m aliasName) :
    answer (calledMixin w d aliasName mixin) s = .ok (some m) := by
  cases h with
  | own found => exact (answer_findMixin d.text mixin d.file s).trans (congrArg Except.ok found)
  | used a module leads found =>
    refine ((w.steady_resolveAlias d.text a d.file).answer_bind_ok leads ?_).trans ?_
    · refine (w.steady_resolveMember module mixin).bind fun found => ?_
      rcases found with _ | m | v <;> exact steady_pure _
    · exact (w.steady_resolveMember module mixin).answer_bind_ok found (steady_pure _)

/-- The parameters of a mixin that is called have names. -/
theorem Calls.isName_of_mem (h : Calls w s d mixin m aliasName) {q : Parameter} (hq : q ∈ m.parameters) :
    Reference.isName q.name = true := by
  obtain ⟨content, name, file, hfind⟩ := exists_find?_of_calledMixin h.answer_calledMixin
  exact Mixin.isName_of_mem_parameters hfind hq

/-! ## What is offered in a call -/

/-- The candidates for the parameters that a text does not bind, in the order of their declaration. -/
def unwritten (m : Mixin) (text : Text) : List Candidate :=
  (m.parameters.filter fun q => ¬ Binds text q.name).map parameterCandidate

/-- Of two texts, one of which binds what the other does, the same is left to write exactly when both bind the same
parameters. -/
theorem unwritten_eq_iff {text' : Text} (h : ∀ q ∈ m.parameters, Binds text' q.name → Binds text q.name) :
    unwritten m text = unwritten m text' ↔ ∀ q ∈ m.parameters, Binds text q.name → Binds text' q.name := by
  constructor
  · intro heq q hq hbinds
    by_contra hfree
    have hmem : parameterCandidate q ∈ unwritten m text' :=
      List.mem_map_of_mem (List.mem_filter.2 ⟨hq, decide_eq_true hfree⟩)
    rw [← heq] at hmem
    obtain ⟨q', hq', hsame⟩ := List.mem_map.1 hmem
    -- the label of a candidate tells the parameter's name
    have hname : q'.name = q.name := (List.cons.inj (congrArg Candidate.label hsame)).2
    have hfree' := of_decide_eq_true (List.mem_filter.1 hq').2
    exact hfree' (hname ▸ hbinds)
  · intro hback
    unfold unwritten
    congr 1
    refine List.filter_congr fun q hq => ?_
    exact decide_eq_decide.2 (not_congr ⟨hback q hq, h q hq⟩)

/-- In a call the parameters are offered that the text before the cursor does not bind. -/
theorem answer_arguments (h : Calls w s d mixin m aliasName) :
    answer (arguments w d p aliasName mixin) s = .ok (unwritten m (d.textBefore p)) := by
  have hstep : answer (arguments w d p aliasName mixin) s =
      answer (pure ((m.parameters.filter fun q => !(writtenArguments (d.textBefore p)).contains q.name).map
        parameterCandidate)) s :=
    (steady_calledMixin w d aliasName mixin).answer_bind_ok h.answer_calledMixin (steady_pure _)
  rw [hstep, answer_pure, unwritten]
  congr 2
  refine List.filter_congr fun q hq => ?_
  have hmem : q.name ∈ writtenArguments (d.textBefore p) ↔ Binds (d.textBefore p) q.name :=
    mem_writtenArguments_iff (h.isName_of_mem hq)
  simp [hmem]

theorem steady_inContext (w : Workspace) (d : Document) (p : Position) : ∀ context, Steady (inContext w d p context)
  | .mixinArgument aliasName mixin => steady_arguments w d p aliasName mixin
  | .memberAccess aliasName filter typed => steady_members w d p aliasName filter typed
  | .scopeVariable typed => steady_scope w d p typed

/-- In a workspace the candidates are those of the context. -/
theorem answer_candidates {context : Context} {root : Path} {cs : List Candidate} (hroot : d.root = some root)
    (hcontext : Context.of? (d.textBefore p) = some context)
    (h : answer (inContext ⟨root, includePaths⟩ d p context) s = .ok cs) :
    answer (candidates includePaths d p) s = .ok cs := by
  have hsteady := steady_inContext ⟨root, includePaths⟩ d p context
  have hsearch : search includePaths d p = report (.completionAsked p) >>= fun _ =>
      report (.contextFound context) >>= fun _ => inContext ⟨root, includePaths⟩ d p context := by
    unfold search
    dsimp only
    rw [hcontext, hroot]
    cases context <;> rfl
  rw [candidates, answer_tryCatch, hsearch, answer_report_bind _ ((steady_report _).bind fun _ => hsteady),
    answer_report_bind _ hsteady, h]

/-- Without a workspace nothing is offered. -/
theorem answer_candidates_of_root_eq_none (hroot : d.root = none) :
    answer (candidates includePaths d p) s = .ok [] := by
  have hsearch : answer (search includePaths d p) s = .ok [] := by
    unfold search
    dsimp only
    rw [hroot]
    cases Context.of? (d.textBefore p) <;> rfl
  rw [candidates, answer_tryCatch, hsearch]

/-- **In a call the parameters are offered that are not bound before the cursor.** Let the text before the cursor count
as the arguments of a call, of a mixin of the document or behind an alias. In a workspace there is one candidate for
each parameter that this text does not bind, in the order of their declaration, and no other. The text has a first open
call; every parameter that is bound stands in front of the call or in its arguments, and what is offered is what the
arguments leave to write exactly when each parameter that is bound in front is bound in the arguments as well. Without a
workspace nothing is offered. -/
theorem candidates_unwritten (includePaths : List Path) (d : Document) (p : Position) (s : Session) (root : Path)
    (aliasName : Option Text) (mixin : Text) (m : Mixin)
    (hcontext : Context.of? (d.textBefore p) = some (.mixinArgument aliasName mixin))
    (hcalled : Calls ⟨root, includePaths⟩ s d mixin m aliasName) :
    (d.root = some root →
      answer (candidates includePaths d p) s = .ok (unwritten m (d.textBefore p)) ∧
      (∃ front arguments, IsOpenCall aliasName mixin (d.textBefore p) front arguments) ∧
      ∀ front arguments, IsOpenCall aliasName mixin (d.textBefore p) front arguments →
        (∀ q ∈ m.parameters, Binds (d.textBefore p) q.name ↔ Binds front q.name ∨ Binds arguments q.name) ∧
        (answer (candidates includePaths d p) s = .ok (unwritten m arguments) ↔
          ∀ q ∈ m.parameters, Binds front q.name → Binds arguments q.name)) ∧
    (d.root = none → answer (candidates includePaths d p) s = .ok []) := by
  refine ⟨fun hroot => ?_, answer_candidates_of_root_eq_none⟩
  have hanswer : answer (candidates includePaths d p) s = .ok (unwritten m (d.textBefore p)) :=
    answer_candidates hroot hcontext (answer_arguments hcalled)
  refine ⟨hanswer, Context.of?_eq_mixinArgument_iff.1 hcontext, fun front arguments hcall => ?_⟩
  have hbinds (q : Parameter) (hq : q ∈ m.parameters) := hcall.opens.binds_iff (hcalled.isName_of_mem hq)
  refine ⟨hbinds, ?_⟩
  rw [hanswer, Except.ok.injEq, unwritten_eq_iff fun q hq h => (hbinds q hq).2 (Or.inr h)]
  refine forall₂_congr fun q hq => ?_
  rw [hbinds q hq, or_imp, and_iff_left id]

end Completion

namespace Ring

/-- The mixin of `/box.scss`. -/
def pad : Mixin :=
  ⟨"pad".toList, fileBox, 1, 0, 7, [⟨"x".toList, none, 2, 2⟩, ⟨"y".toList, some "2px".toList, 3, 2⟩]⟩

/-- A document in which the mixin is being called, behind a variable whose name begins like a parameter. -/
def padding : Document where
  file := ⟨.root, ["padding.scss".toList]⟩
  text := "@use \"./box\";\n.card \x7b $x-min: 0; @include box.pad ($y : 1px, ".toList
  root := some ⟨.root, []⟩

end Ring

/-- The parameter that is written is left out, the other one is offered: the variable in front has another name. -/
theorem Completion.candidates_unwritten_ring :
    Context.of? (Ring.padding.textBefore ⟨1, 47⟩) = some (.mixinArgument (some "box".toList) "pad".toList) ∧
    Calls Ring.workspace (.start Ring.diskBox) Ring.padding "pad".toList Ring.pad (some "box".toList) ∧
    IsOpenCall (some "box".toList) "pad".toList (Ring.padding.textBefore ⟨1, 47⟩) ".card \x7b $x-min: 0; ".toList
      "$y : 1px, ".toList ∧
    answer (candidates [] Ring.padding ⟨1, 47⟩) (.start Ring.diskBox) =
      .ok [⟨"$x".toList, .argument, "$x: ".toList, "(required)".toList, none, none⟩] ∧
    answer (candidates [] Ring.padding ⟨1, 47⟩) (.start Ring.diskBox) =
      .ok (unwritten Ring.pad "$y : 1px, ".toList) := by
  have hblank : ∀ c ∈ [' '], Text.isBlank c = true := List.forall_mem_singleton.2 (by decide)
  have hopens : OpensCall (some "box".toList) "pad".toList (Ring.padding.textBefore ⟨1, 47⟩)
      ".card \x7b $x-min: 0; ".toList "$y : 1px, ".toList :=
    ⟨by decide +kernel, by decide, ⟨[' '], [' '], by decide, hblank, hblank, by decide +kernel⟩, by decide⟩
  have hcall := hopens.isOpenCall (by decide +kernel)
  have hcontext := Context.of?_eq_mixinArgument_iff.2 ⟨_, _, hcall⟩
  have hcalled : Calls Ring.workspace (.start Ring.diskBox) Ring.padding "pad".toList Ring.pad (some "box".toList) :=
    .used _ Ring.fileBox (by decide +kernel) (by decide +kernel)
  have hfree : ∀ q ∈ Ring.pad.parameters, Binds ".card \x7b $x-min: 0; ".toList q.name →
      Binds "$y : 1px, ".toList q.name := by decide +kernel
  obtain ⟨hanswer, -, hfirst⟩ := (candidates_unwritten [] Ring.padding ⟨1, 47⟩ (.start Ring.diskBox) ⟨.root, []⟩ _ _ _
    hcontext hcalled).1 rfl
  refine ⟨hcontext, hcalled, hcall, hanswer.trans ?_, (hfirst _ _ hcall).2.2 hfree⟩
  decide +kernel

namespace Ring

/-- A document in which a mixin is called for the second time in a line, behind a variable named like a parameter. -/
def rows : Document where
  file := ⟨.root, ["rows.scss".toList]⟩
  text := "@mixin row($size, $gap: 1px, $tone) \x7b\x7d\n".toList ++
    "a \x7b $gap: 2px; @include row($size: 1px); @include row(".toList
  root := some ⟨.root, []⟩

/-- The mixin of the document. -/
def row : Mixin :=
  ⟨"row".toList, rows.file, 0, 0, 7,
    [⟨"size".toList, none, 0, 11⟩, ⟨"gap".toList, some "1px".toList, 0, 18⟩, ⟨"tone".toList, none, 0, 29⟩]⟩

end Ring

/-- The second call has no argument yet, but the variable and the first call hide a parameter each. Outside a workspace
the mixin is the same, and nothing is offered. -/
theorem Completion.candidates_miss_unwritten :
    Context.of? (Ring.rows.textBefore ⟨1, 54⟩) = some (.mixinArgument none "row".toList) ∧
    IsOpenCall none "row".toList (Ring.rows.textBefore ⟨1, 54⟩)
      "a \x7b $gap: 2px; @include row($size: 1px); ".toList [] ∧
    (unwritten Ring.row []).map Candidate.label = ["$size".toList, "$gap".toList, "$tone".toList] ∧
    (Calls Ring.workspace (.start Ring.disk) Ring.rows "row".toList Ring.row none ∧
      answer (candidates [] Ring.rows ⟨1, 54⟩) (.start Ring.disk) =
        .ok [⟨"$tone".toList, .argument, "$tone: ".toList, "(required)".toList, none, none⟩] ∧
      answer (candidates [] Ring.rows ⟨1, 54⟩) (.start Ring.disk) ≠ .ok (unwritten Ring.row [])) ∧
    Calls Ring.workspace (.start Ring.disk) { Ring.rows with root := none } "row".toList Ring.row none ∧
      answer (candidates [] { Ring.rows with root := none } ⟨1, 54⟩) (.start Ring.disk) = .ok [] := by
  have hopens : OpensCall none "row".toList (Ring.rows.textBefore ⟨1, 54⟩)
      "a \x7b $gap: 2px; @include row($size: 1px); ".toList [] :=
    ⟨nofun, by decide, ⟨[' '], [], by decide, List.forall_mem_singleton.2 (by decide), nofun, by decide +kernel⟩,
      by decide⟩
  have hcall := hopens.isOpenCall (by decide +kernel)
  have hcontext := Context.of?_eq_mixinArgument_iff.2 ⟨_, _, hcall⟩
  have hfound : Mixin.find? Ring.rows.text "row".toList Ring.rows.file = some Ring.row := by decide +kernel
  have hcalled : Calls Ring.workspace (.start Ring.disk) Ring.rows "row".toList Ring.row none := .own hfound
  have hanswer : answer (candidates [] Ring.rows ⟨1, 54⟩) (.start Ring.disk) =
      .ok [⟨"$tone".toList, .argument, "$tone: ".toList, "(required)".toList, none, none⟩] :=
    (answer_candidates rfl hcontext (answer_arguments hcalled)).trans (by decide +kernel)
  have hmissed : (unwritten Ring.row []).map Candidate.label = ["$size".toList, "$gap".toList, "$tone".toList] := by
    decide +kernel
  refine ⟨hcontext, hcall, hmissed, ⟨hcalled, hanswer, fun heq => ?_⟩, .own hfound, ?_⟩
  · rw [← Except.ok.inj (hanswer.symm.trans heq)] at hmissed
    cases hmissed
  · exact answer_candidates_of_root_eq_none rfl

end SassModules
