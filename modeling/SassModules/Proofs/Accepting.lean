import SassModules.Proofs.Declared
import SassModules.Proofs.Offering
import SassModules.Proofs.Touching

/-!
# Accepting a candidate

A candidate may come with a stretch of the line that its text is to replace. The stretch ends at the cursor and holds what
was typed (`HoldsTyped`): the patterns that classify the text before the cursor match up to its end, so the typed
characters are the last ones before the cursor (`Context.typed_of_memberAccess`, `Context.typed_of_scopeVariable`). Every
name that a module shows is a member name (`IsShownBy.isMemberName`), whatever prefixes it went through. So accepting a
member behind an alias writes a token that is read back as a reference to it (`candidates_read_back`).
-/

namespace SassModules

open Forwarding Hop Session

/-! ## Patterns that match up to the end -/

namespace Pattern

variable {s rest typed aliasName : Text}

/-- Name characters up to the end of a text of one line are all of it. -/
theorem run_of_atEnd (hs : '\n' ∉ s) (h : atEnd (run Text.isNameChar s).2 = true) :
    run Text.isNameChar s = (s, []) ∧ ∀ c ∈ s, Text.isNameChar c = true := by
  obtain ⟨happend, hname, -⟩ := run_spec (rfl : run Text.isNameChar s = _)
  have hrest : s.dropWhile Text.isNameChar = [] := by
    rcases Bool.or_eq_true_iff.1 h with h | h
    · exact of_decide_eq_true h
    · have hfeed : s.dropWhile Text.isNameChar = ['\n'] := of_decide_eq_true h
      rw [hfeed] at happend
      exact absurd (happend ▸ List.mem_append_right _ List.mem_cons_self) hs
  rw [hrest, List.append_nil] at happend
  rw [happend] at hname
  exact ⟨Prod.ext happend hrest, hname⟩

/-- A variable under way takes a text of one line whole. -/
theorem openVariable_eq_some (hs : '\n' ∉ s) (h : openVariable s = some (typed, rest)) :
    s = typed ∧ rest = [] ∧ ∃ name, typed = '$' :: name ∧ ∀ c ∈ name, Text.isNameChar c = true := by
  simp only [openVariable, Option.bind_eq_bind, Option.bind_eq_some_iff, guard, Option.some.injEq, Prod.mk.injEq] at h
  obtain ⟨t, ht, ⟨⟩, hend, rfl, rfl⟩ := h
  obtain rfl : '$' :: t = s := literal_eq_some_iff.1 ht
  have hend : atEnd (run Text.isNameChar t).2 = true := by simpa using hend
  obtain ⟨hrun, hname⟩ := run_of_atEnd (fun hm => hs (List.mem_cons_of_mem _ hm)) hend
  rw [hrun]
  exact ⟨rfl, rfl, t, rfl, hname⟩

/-- A member under way behind an alias takes a text of one line whole. -/
theorem openMember_eq_some (hs : '\n' ∉ s) (h : openMember s = some ((aliasName, typed), rest)) :
    s = aliasName ++ '.' :: typed ∧ Reference.isName aliasName = true ∧
      ∀ c ∈ Name.bare typed, Text.isNameChar c = true := by
  simp only [openMember, Option.bind_eq_bind, Option.bind_eq_some_iff, Prod.exists, Option.some.injEq,
    Prod.mk.injEq] at h
  obtain ⟨a, t, ha, u, hu, typed', rest', hmember, ⟨rfl, rfl⟩, rfl⟩ := h
  obtain ⟨halias, rfl, -⟩ := word_eq_some_iff.1 ha
  obtain rfl : '.' :: u = t := literal_eq_some_iff.1 hu
  have hu : '\n' ∉ u := fun hm => hs (List.mem_append_right _ (List.mem_cons_of_mem _ hm))
  rw [Option.orElse_eq_orElse, Option.orElse_eq_or, Option.or_eq_some_iff] at hmember
  rcases hmember with hvar | ⟨-, hplain⟩
  · obtain ⟨rfl, -, name, rfl, hname⟩ := openVariable_eq_some hu hvar
    exact ⟨rfl, halias, hname⟩
  · simp only [Option.bind_eq_some_iff, guard, Option.some.injEq, Prod.mk.injEq] at hplain
    obtain ⟨⟨⟩, hend, rfl, rfl⟩ := hplain
    have hend : atEnd (run Text.isNameChar u).2 = true := by simpa using hend
    obtain ⟨hrun, hname⟩ := run_of_atEnd hu hend
    rw [hrun]
    refine ⟨rfl, halias, fun c hc => hname c ?_⟩
    rw [← Name.sigil_append_bare u]
    exact List.mem_append_right _ hc

/-- A match at the leftmost place begins somewhere in the text. -/
theorem exists_of_firstHit? {α : Type} {pat : Pattern α} {h : Hit α} (hfound : pat.firstHit? s = some h) :
    ∃ front tail rest, s = front ++ tail ∧ pat tail = some (h.value, rest) := by
  obtain ⟨k, rest, -, hk⟩ := exists_of_firstHitFrom? s 0 hfound
  exact ⟨s.take k, s.drop k, rest, (List.take_append_drop k s).symm, hk⟩

end Pattern

namespace Context

variable {before aliasName : Text} {filter : MemberFilter} {n : Nat} {context : Context}

/-- The test that gives contexts of this kind. -/
def classifier : Context → Text → Option Context
  | .mixinArgument _ _ => mixinArgument?
  | .memberAccess _ _ _ => memberAccess?
  | .scopeVariable _ => scopeVariable?

/-- A context is given by the test for its kind. -/
theorem classifier_of_of? (h : of? before = some context) : context.classifier before = some context := by
  simp only [of?, Option.orElse_eq_orElse, Option.orElse_eq_or, Option.or_eq_some_iff] at h
  rcases h with h | ⟨-, h | ⟨-, h⟩⟩
  · obtain ⟨_, -, rfl⟩ := Option.map_eq_some_iff.1 h
    exact h
  · obtain ⟨_, -, rfl⟩ := Option.map_eq_some_iff.1 h
    exact h
  · obtain ⟨_, -, rfl⟩ := Option.map_eq_some_iff.1 h
    exact h

/-- Behind an alias, the text before the cursor ends with the alias, a dot and what was typed. -/
theorem typed_of_memberAccess (hbefore : '\n' ∉ before) (h : of? before = some (.memberAccess aliasName filter n)) :
    ∃ front typed, before = front ++ (aliasName ++ '.' :: typed) ∧ typed.length = n ∧
      Reference.isName aliasName = true ∧ ∀ c ∈ Name.bare typed, Text.isNameChar c = true := by
  have hmember : memberAccess? before = some (.memberAccess aliasName filter n) := classifier_of_of? h
  obtain ⟨hit, hhit, heq⟩ := Option.map_eq_some_iff.1 hmember
  obtain ⟨front, tail, rest, rfl, htail⟩ := Pattern.exists_of_firstHit? hhit
  obtain ⟨rfl, rfl, rfl⟩ := memberAccess.inj heq
  obtain ⟨rfl, halias, htyped⟩ := Pattern.openMember_eq_some (fun hm => hbefore (List.mem_append_right _ hm)) htail
  exact ⟨front, hit.value.2, rfl, rfl, halias, htyped⟩

/-- At a bare variable, the text before the cursor ends with what was typed of it. -/
theorem typed_of_scopeVariable (hbefore : '\n' ∉ before) (h : of? before = some (.scopeVariable n)) :
    ∃ front name, before = front ++ '$' :: name ∧ name.length + 1 = n ∧ ∀ c ∈ name, Text.isNameChar c = true := by
  have hscope : scopeVariable? before = some (.scopeVariable n) := classifier_of_of? h
  obtain ⟨typed, htyped, heq⟩ := Option.map_eq_some_iff.1 hscope
  obtain rfl := scopeVariable.inj heq
  rw [Option.orElse_eq_orElse, Option.orElse_eq_or, Option.or_eq_some_iff] at htyped
  -- the variable stands at the start of the line, or a separator stands in front of it
  have hopen : ∃ front tail rest, before = front ++ tail ∧ Pattern.openVariable tail = some (typed, rest) := by
    rcases htyped with hstart | ⟨-, hsep⟩
    · obtain ⟨⟨_, rest⟩, hvar, rfl⟩ := Option.map_eq_some_iff.1 hstart
      exact ⟨[], before, rest, rfl, hvar⟩
    · obtain ⟨hit, hhit, rfl⟩ := Option.map_eq_some_iff.1 hsep
      obtain ⟨front, tail, rest, rfl, htail⟩ := Pattern.exists_of_firstHit? hhit
      unfold Pattern.separatedVariable at htail
      split at htail
      · rename_i c tail
        split at htail
        · exact ⟨front ++ [c], tail, rest, by simp, htail⟩
        · cases htail
      · cases htail
  obtain ⟨front, tail, rest, rfl, hvar⟩ := hopen
  obtain ⟨rfl, -, name, rfl, hname⟩ := Pattern.openVariable_eq_some (fun hm => hbefore (List.mem_append_right _ hm)) hvar
  exact ⟨front, name, rfl, rfl, hname⟩

end Context

/-! ## The line under the cursor -/

namespace Document

variable {d : Document} {p : Position}

/-- A line holds no line feed. -/
theorem newline_not_mem_lineAt (d : Document) (n : Int) : '\n' ∉ d.lineAt n := by
  unfold lineAt
  split
  · intro hm
    have hm : '\n' ∈ (d.text.lines[n.toNat]?).getD [] := by
      have hsub := List.dropWhile_sublist (· == '\r') (l := ((d.text.lines[n.toNat]?).getD []).reverse)
      exact List.mem_reverse.1 (hsub.subset (List.mem_reverse.1 hm))
    cases hline : d.text.lines[n.toNat]? with
    | none => rw [hline] at hm; cases hm
    | some l =>
      rw [hline] at hm
      exact Text.newline_not_mem_of_mem_lines (List.mem_of_getElem? hline) hm
  · exact List.not_mem_nil

/-- In the line, the text before a cursor ends at its column. -/
theorem textBefore_eq_take (hfrom : 0 ≤ p.character) :
    d.textBefore p = (d.lineAt p.line).take p.character.toNat := if_pos hfrom

theorem newline_not_mem_textBefore (hfrom : 0 ≤ p.character) : '\n' ∉ d.textBefore p := by
  rw [textBefore_eq_take hfrom]
  exact fun hm => d.newline_not_mem_lineAt p.line (List.mem_of_mem_take hm)

theorem length_textBefore (hfrom : 0 ≤ p.character) (hto : p.character ≤ (d.lineAt p.line).length) :
    ((d.textBefore p).length : Int) = p.character := by
  rw [textBefore_eq_take hfrom, List.length_take]
  omega

end Document

/-! ## Names that are shown -/

section Names

variable {w : Workspace} {s : Session} {kind : MemberKind} {module file : Path} {content text n : Text} {hs : List Hop}
  {m : Member}

/-- A prefix of name characters makes a member name of a member name. -/
theorem Name.isMemberName_addPrefix {p : Text} (hp : Reference.isName p = true)
    (hn : Reference.isMemberName n = true) : Reference.isMemberName (Name.addPrefix (some p) n) = true := by
  rw [Name.isMemberName_eq] at hn ⊢
  rw [Name.bare_addPrefix (Name.not_mem_of_isName hp)]
  obtain ⟨hne, hchars⟩ := Pattern.isName_iff.1 hp
  obtain ⟨-, hchars'⟩ := Pattern.isName_iff.1 hn
  refine Pattern.isName_iff.2 ⟨List.append_ne_nil_of_left_ne_nil hne _, fun c hc => ?_⟩
  exact (List.mem_append.1 hc).elim (hchars c) (hchars' c)

theorem Member.isMemberName_of_mem_scan (hm : m ∈ Member.scan kind text file) :
    Reference.isMemberName m.name = true := by
  rw [Name.isMemberName_eq]
  cases kind with
  | mixin =>
    obtain ⟨x, hx, rfl⟩ := List.mem_map.1 hm
    have hname := Mixin.isName_of_mem_scan hx
    show Reference.isName (Name.bare x.name) = true
    rwa [Name.bare_of_not_mem (Name.not_mem_of_isName hname)]
  | var =>
    obtain ⟨x, hx, rfl⟩ := List.mem_map.1 hm
    obtain ⟨n, hn, hname⟩ := Variable.isName_of_mem_scan hx
    show Reference.isName (Name.bare x.name) = true
    rwa [hn]

theorem IsChain.isMemberName_addPrefixes (hchain : IsChain w s content file hs)
    (hn : Reference.isMemberName n = true) : Reference.isMemberName (addPrefixes hs n) = true := by
  induction hchain with
  | nil => exact hn
  | @cons _ _ _ hop _ hhop _ _ ih =>
    rw [addPrefixes_cons]
    cases hp : hop.decl.pre with
    | none => exact ih
    | some p =>
      exact Name.isMemberName_addPrefix (Reexport.isName_pre (List.mem_of_getElem? hhop.scanned) hp) ih

/-- A member is shown by a member name. -/
theorem IsShownBy.isMemberName (h : IsShownBy w s kind module hs m) :
    Reference.isMemberName (addPrefixes hs m.name) = true := by
  obtain ⟨content, -, hchain⟩ := h.chain
  obtain ⟨text, -, hm⟩ := h.defined
  exact hchain.isMemberName_addPrefixes (Member.isMemberName_of_mem_scan hm)

end Names

/-! ## What a candidate replaces -/

/-- The characters of a line that a stretch covers. -/
def Span.coveredIn (span : Span) (line : Text) : Text :=
  line.between span.start.character.toNat span.stop.character.toNat

/-- The line with a text in place of what a stretch covers. -/
def Span.replaceIn (span : Span) (line inserted : Text) : Text :=
  line.take span.start.character.toNat ++ (inserted ++ line.drop span.stop.character.toNat)

/-- The stretch covers what was typed: behind the alias and its dot a member under way, elsewhere a variable under
way. -/
def Span.HoldsTyped (span : Span) (line : Text) : Context → Prop
  | .memberAccess aliasName _ _ => (∃ front, line.take span.start.character.toNat = front ++ (aliasName ++ ['.'])) ∧
      ∀ c ∈ Name.bare (span.coveredIn line), Text.isNameChar c = true
  | .scopeVariable _ => ∃ name, span.coveredIn line = '$' :: name ∧ ∀ c ∈ name, Text.isNameChar c = true
  | .mixinArgument _ _ => False

namespace Completion

variable {includePaths : List Path} {w : Workspace} {d : Document} {p : Position} {s : Session} {cs : List Candidate}
  {root : Path} {aliasName front typed : Text} {filter : MemberFilter} {n : Nat}

section Typed

variable (hfrom : 0 ≤ p.character) (hto : p.character ≤ (d.lineAt p.line).length)
  (hbefore : d.textBefore p = front ++ typed)

include hfrom hto hbefore

/-- The typed characters begin in the line, at the column where what stands before them ends. -/
theorem start_typedSpan : (typedSpan p typed.length).start.character = front.length := by
  have hlength := Document.length_textBefore hfrom hto
  rw [hbefore, List.length_append] at hlength
  show p.character - typed.length = front.length
  omega

/-- The stretch of the typed characters covers them and leaves what stands before them. -/
theorem typedSpan_eq : (d.lineAt p.line).take (typedSpan p typed.length).start.character.toNat = front ∧
    (typedSpan p typed.length).coveredIn (d.lineAt p.line) = typed := by
  have hline := (Document.textBefore_eq_take (d := d) hfrom).symm.trans hbefore
  have hstart := start_typedSpan hfrom hto hbefore
  have hlength : front.length ≤ p.character.toNat := by
    have : (typedSpan p typed.length).start.character = p.character - typed.length := rfl
    omega
  rw [Span.coveredIn, Text.between, hstart, Int.toNat_natCast]
  constructor
  · have htake : (d.lineAt p.line).take front.length = ((d.lineAt p.line).take p.character.toNat).take front.length := by
      rw [List.take_take, Nat.min_eq_left hlength]
    rw [htake, hline, List.take_left]
  · show ((d.lineAt p.line).take p.character.toNat).drop front.length = typed
    rw [hline, List.drop_left]

end Typed

/-! ## The stretch of each candidate -/

/-- A member behind an alias replaces the typed characters by its label, which is a member name. -/
theorem of_mem_members (h : Gives (members w d p aliasName filter n) s cs) : ∀ c ∈ cs,
    c.span = some (typedSpan p n) ∧ c.insertText = c.label ∧ Reference.isMemberName c.label = true := by
  obtain ⟨found, -, h⟩ := (w.steady_resolveAlias d.text aliasName d.file).gives_bind h
  cases found with
  | none =>
    obtain rfl := eq_of_gives_pure h
    exact fun _ hc => absurd hc List.not_mem_nil
  | some module =>
    obtain ⟨bindings, hbindings, h⟩ := exists_areShown_of_gives h
    obtain ⟨mixins, hmixins, h⟩ := exists_areShown_of_gives h
    obtain rfl := eq_of_gives_reported h
    have hmember : ∀ {kind : MemberKind} {ms : List Member}, AreShown w s kind module ms → ∀ r ∈ ms,
        (memberCandidate (typedSpan p n) r).span = some (typedSpan p n) ∧
          (memberCandidate (typedSpan p n) r).insertText = (memberCandidate (typedSpan p n) r).label ∧
          Reference.isMemberName (memberCandidate (typedSpan p n) r).label = true := by
      intro kind ms hms r hr
      obtain ⟨hs, m, hm, rfl⟩ := hms.shown r hr
      rw [(hm.memberCandidate_eq _).2]
      refine ⟨?_, ?_, hm.isMemberName⟩
      · cases m <;> rfl
      · rw [← (hm.memberCandidate_eq (typedSpan p n)).2]
        cases m <;> rfl
    intro c hc
    obtain ⟨r, hr, rfl⟩ := List.mem_map.1 hc
    rcases List.mem_append.1 hr with hr | hr
    · exact hmember hbindings r hr
    · exact hmember hmixins r hr

theorem span_of_mem_arguments {name : Option Text} {mixin : Text} (h : Gives (arguments w d p name mixin) s cs) :
    ∀ c ∈ cs, c.span = none := by
  obtain ⟨found, -, h⟩ := (steady_calledMixin w d name mixin).gives_bind h
  cases found with
  | none =>
    obtain rfl := eq_of_gives_pure h
    exact fun _ hc => absurd hc List.not_mem_nil
  | some m =>
    obtain rfl := eq_of_gives_pure h
    intro c hc
    obtain ⟨q, -, rfl⟩ := List.mem_map.1 hc
    rfl

theorem span_of_mem_importedVariables {span : Span} (is : List Import) (cs : List Candidate)
    (h : Gives (importedVariables w d span is) s cs) : ∀ c ∈ cs, c.span = some span := by
  induction is generalizing cs with
  | nil =>
    obtain rfl := eq_of_gives_pure h
    exact fun _ hc => absurd hc List.not_mem_nil
  | cons i is ih =>
    rw [importedVariables] at h
    split at h
    · exact ih cs h
    · obtain ⟨found, -, h⟩ := (w.steady_resolve d.file i.path).gives_bind h
      cases found with
      | none => exact ih cs h
      | some module =>
        obtain ⟨ms, -, h⟩ := (w.steady_visibleMembers module .var).gives_bind h
        obtain ⟨others, hothers, h⟩ := (steady_importedVariables w d span is).gives_bind h
        obtain rfl := eq_of_gives_pure h
        intro c hc
        rcases List.mem_append.1 hc with hc | hc
        · obtain ⟨v, -, rfl⟩ := List.mem_map.1 hc
          rfl
        · exact ih others (gives_of_answer hothers) c hc

/-- A variable in scope replaces the typed characters, if it replaces anything. -/
theorem span_of_mem_scope {span : Span} (h : Gives (scope w d p n) s cs) :
    ∀ c ∈ cs, c.span = some span → span = typedSpan p n := by
  obtain ⟨is, -, h⟩ := (steady_imports d.text).gives_bind h
  obtain ⟨imported, himported, h⟩ := (steady_importedVariables w d _ is).gives_bind h
  obtain rfl := eq_of_gives_pure h
  intro c hc hspan
  rw [newLabels_eq_firstOf] at hc
  rcases List.mem_append.1 (of_mem_firstOf hc).1 with hc | hc
  · obtain ⟨v, -, rfl⟩ := List.mem_map.1 hc
    cases hspan
  · rw [span_of_mem_importedVariables _ _ (gives_of_answer himported) c hc] at hspan
    exact (Option.some.inj hspan).symm

/-! ## At a cursor -/

/-- The candidates in a context; faults come out. -/
def inContext (w : Workspace) (d : Document) (p : Position) : Context → Query (List Candidate)
  | .mixinArgument aliasName mixin => arguments w d p aliasName mixin
  | .memberAccess aliasName filter typed => members w d p aliasName filter typed
  | .scopeVariable typed => scope w d p typed

/-- Where there are candidates, they are those of the context before the cursor. -/
theorem exists_inContext_of_mem {c : Candidate} (h : answer (candidates includePaths d p) s = .ok cs) (hc : c ∈ cs) :
    ∃ context root, Context.of? (d.textBefore p) = some context ∧
      Gives (inContext ⟨root, includePaths⟩ d p context) s cs := by
  -- after a fault, without a context and without a root there is no candidate
  have hsearch : answer (search includePaths d p) s = .ok cs := by
    rw [candidates, answer_tryCatch] at h
    cases hsearch : answer (search includePaths d p) s with
    | ok found => rwa [hsearch] at h
    | error fault =>
      rw [hsearch] at h
      obtain rfl := eq_of_gives_reported (gives_of_answer h)
      exact absurd hc List.not_mem_nil
  have h := gives_of_report_bind (gives_of_answer hsearch)
  dsimp only at h
  cases hcontext : Context.of? (d.textBefore p) with
  | none =>
    rw [hcontext] at h
    obtain rfl := eq_of_gives_reported h
    exact absurd hc List.not_mem_nil
  | some context =>
    rw [hcontext] at h
    cases hroot : d.root with
    | none =>
      rw [hroot] at h
      obtain rfl := eq_of_gives_pure h
      exact absurd hc List.not_mem_nil
    | some root =>
      rw [hroot] at h
      refine ⟨context, root, rfl, ?_⟩
      have h := gives_of_report_bind h
      cases context <;> exact h

/-- A stretch that a candidate replaces ends at the cursor and holds what was typed. -/
theorem holdsTyped_of_mem {c : Candidate} {span : Span} (hfrom : 0 ≤ p.character)
    (hto : p.character ≤ (d.lineAt p.line).length) (h : answer (candidates includePaths d p) s = .ok cs) (hc : c ∈ cs)
    (hspan : c.span = some span) : ∃ context n, Context.of? (d.textBefore p) = some context ∧ span = typedSpan p n ∧
      0 ≤ span.start.character ∧ span.HoldsTyped (d.lineAt p.line) context := by
  obtain ⟨context, root, hcontext, h⟩ := exists_inContext_of_mem h hc
  have hfeed := Document.newline_not_mem_textBefore (d := d) hfrom
  cases context with
  | mixinArgument aliasName mixin =>
    rw [span_of_mem_arguments h c hc] at hspan
    cases hspan
  | memberAccess aliasName filter n =>
    obtain ⟨front, typed, hbefore, rfl, -, htyped⟩ := Context.typed_of_memberAccess hfeed hcontext
    obtain rfl : typedSpan p typed.length = span := Option.some.inj ((of_mem_members h c hc).1.symm.trans hspan)
    have hbefore : d.textBefore p = (front ++ (aliasName ++ ['.'])) ++ typed := by simpa using hbefore
    obtain ⟨htake, hcovered⟩ := typedSpan_eq hfrom hto hbefore
    refine ⟨_, typed.length, hcontext, rfl, ?_, ⟨front, htake⟩, by rwa [hcovered]⟩
    rw [start_typedSpan hfrom hto hbefore]
    exact Int.natCast_nonneg _
  | scopeVariable n =>
    obtain ⟨front, name, hbefore, rfl, hname⟩ := Context.typed_of_scopeVariable hfeed hcontext
    obtain rfl := span_of_mem_scope h c hc hspan
    obtain ⟨-, hcovered⟩ := typedSpan_eq hfrom hto hbefore
    refine ⟨_, ('$' :: name).length, hcontext, rfl, ?_, ⟨name, hcovered, hname⟩⟩
    exact (start_typedSpan hfrom hto hbefore).symm ▸ Int.natCast_nonneg _

/-- A member written behind an alias, between characters of no token, is read back from its end. -/
theorem at?_replaceIn {label : Text} (hfrom : 0 ≤ p.character) (hto : p.character ≤ (d.lineAt p.line).length)
    (hbefore : d.textBefore p = front ++ (aliasName ++ '.' :: typed)) (halias : Reference.isName aliasName = true)
    (hlabel : Reference.isMemberName label = true) (hfront : ∀ c ∈ front.getLast?, Reference.isTokenChar c = false)
    (hrest : ∀ c ∈ ((d.lineAt p.line).drop p.character.toNat).head?, Reference.isTokenChar c = false) :
    Reference.at? ((typedSpan p typed.length).replaceIn (d.lineAt p.line) label)
        ((typedSpan p typed.length).start.character + label.length) =
      some ⟨aliasName, label, .memberPart, front.length, (front ++ (aliasName ++ '.' :: label)).length⟩ := by
  have hbefore : d.textBefore p = (front ++ (aliasName ++ ['.'])) ++ typed := by simpa using hbefore
  obtain ⟨htake, -⟩ := typedSpan_eq hfrom hto hbefore
  have hline : (typedSpan p typed.length).replaceIn (d.lineAt p.line) label =
      front ++ ((aliasName ++ '.' :: label) ++ (d.lineAt p.line).drop p.character.toNat) := by
    rw [Span.replaceIn, htake]
    simp [typedSpan]
  have hcolumn : (typedSpan p typed.length).start.character + label.length =
      ((front.length + (aliasName ++ '.' :: label).length : Nat) : Int) := by
    rw [start_typedSpan hfrom hto hbefore]
    simp only [List.length_append, List.length_cons, List.length_nil]
    omega
  rw [hline, hcolumn, Reference.at?_append hfront (Reference.isTokenChar_of_mem_text halias hlabel) hrest
    (Reference.split?_eq_some_iff.2 ⟨rfl, halias, hlabel⟩) (Nat.le_refl _), if_neg (by simp)]
  simp only [List.length_append]

/-- **An accepted candidate is read back.** With the cursor in the line, there is an answer, and every stretch that a
candidate replaces ends at the cursor, begins in the same line and covers exactly what was typed. Behind an alias, if
neither the character before the alias nor the one at the cursor belongs to a token, accepting any candidate writes a
line in which a cursor behind the inserted text is on the member of a reference: of the alias and of the candidate's
label. -/
theorem candidates_read_back (includePaths : List Path) (d : Document) (p : Position) (s : Session)
    (hfrom : 0 ≤ p.character) (hto : p.character ≤ (d.lineAt p.line).length) :
    ∃ cs, answer (candidates includePaths d p) s = .ok cs ∧
      (∀ c ∈ cs, ∀ span, c.span = some span → span.stop = p ∧ span.start.line = p.line ∧
        0 ≤ span.start.character ∧ span.start.character ≤ p.character ∧
        ∃ context, Context.of? (d.textBefore p) = some context ∧ span.HoldsTyped (d.lineAt p.line) context) ∧
      ∀ (aliasName : Text) (filter : MemberFilter) (n : Nat),
        Context.of? (d.textBefore p) = some (.memberAccess aliasName filter n) →
        ∀ front typed : Text, d.textBefore p = front ++ (aliasName ++ '.' :: typed) → typed.length = n →
        (∀ c ∈ front.getLast?, Reference.isTokenChar c = false) →
        (∀ c ∈ ((d.lineAt p.line).drop p.character.toNat).head?, Reference.isTokenChar c = false) →
        ∀ c ∈ cs, ∃ span, c.span = some span ∧
          Reference.at? (span.replaceIn (d.lineAt p.line) c.insertText)
              (span.start.character + c.insertText.length) =
            some ⟨aliasName, c.label, .memberPart, front.length, (front ++ (aliasName ++ '.' :: c.label)).length⟩ := by
  obtain ⟨cs, hcs⟩ := exists_answer_candidates includePaths d p s
  refine ⟨cs, hcs, fun c hc span hspan => ?_, ?_⟩
  · obtain ⟨context, n, hcontext, rfl, hstart, htyped⟩ := holdsTyped_of_mem hfrom hto hcs hc hspan
    refine ⟨rfl, rfl, hstart, ?_, context, hcontext, htyped⟩
    show p.character - n ≤ p.character
    omega
  · rintro aliasName filter n hcontext front typed hbefore rfl hfront hrest c hc
    obtain ⟨context, root, hcontext', h⟩ := exists_inContext_of_mem hcs hc
    obtain rfl := Option.some.inj (hcontext.symm.trans hcontext')
    obtain ⟨hspan, hinsert, hlabel⟩ := of_mem_members h c hc
    obtain ⟨-, -, -, -, halias, -⟩ :=
      Context.typed_of_memberAccess (Document.newline_not_mem_textBefore hfrom) hcontext
    refine ⟨_, hspan, ?_⟩
    rw [hinsert]
    exact at?_replaceIn hfrom hto hbefore halias hlabel hfront hrest

end Completion

/-- A document in which a variable from around the ring is being typed, in parentheses. -/
def Ring.margin : Document where
  file := ⟨.root, ["margin.scss".toList]⟩
  text := "@use \"./a\";\n.x \x7b margin: (a.$b-) \x7d".toList
  root := some ⟨.root, []⟩

/-- The name is completed through both prefixes of the ring and read back. -/
theorem Completion.candidates_read_back_ring :
    (0 : Int) ≤ 19 ∧ (19 : Int) ≤ (Ring.margin.lineAt 1).length ∧
    Context.of? (Ring.margin.textBefore ⟨1, 19⟩) = some (.memberAccess "a".toList .var 3) ∧
    answer (candidates [] Ring.margin ⟨1, 19⟩) (.start Ring.disk) =
      .ok (["$gap: 1px", "$b-tone: red", "$b-a-gap: 1px"].map fun detail =>
        let label := detail.toList.takeWhile (· != ':')
        ⟨label, .var, label, detail.toList, some ⟨⟨1, 16⟩, ⟨1, 19⟩⟩, none⟩) ∧
    Reference.at? ".x \x7b margin: (a.$b-a-gap) \x7d".toList 24 =
      some ⟨"a".toList, "$b-a-gap".toList, .memberPart, 14, 24⟩ := by
  have hto : (19 : Int) ≤ (Ring.margin.lineAt 1).length := by decide +kernel
  have hcontext : Context.of? (Ring.margin.textBefore ⟨1, 19⟩) = some (.memberAccess "a".toList .var 3) := by
    decide +kernel
  have hanswer : answer (candidates [] Ring.margin ⟨1, 19⟩) (.start Ring.disk) =
      .ok (["$gap: 1px", "$b-tone: red", "$b-a-gap: 1px"].map fun detail =>
        let label := detail.toList.takeWhile (· != ':')
        ⟨label, .var, label, detail.toList, some ⟨⟨1, 16⟩, ⟨1, 19⟩⟩, none⟩) := by decide +kernel
  obtain ⟨cs, hcs, -, hread⟩ :=
    candidates_read_back [] Ring.margin ⟨1, 19⟩ (.start Ring.disk) (by decide) hto
  obtain rfl := Except.ok.inj (hanswer.symm.trans hcs)
  refine ⟨by decide, hto, hcontext, hanswer, ?_⟩
  have hfront : ".x \x7b margin: (".toList.getLast? = some '(' := by decide +kernel
  have hrest : ((Ring.margin.lineAt 1).drop 19).head? = some ')' := by decide +kernel
  obtain ⟨span, hspan, hat⟩ := hread "a".toList .var 3 hcontext ".x \x7b margin: (".toList "$b-".toList
    (by decide +kernel) rfl (fun c hc => by obtain rfl := Option.some.inj (hfront.symm.trans hc); decide)
    (fun c hc => by obtain rfl := Option.some.inj (hrest.symm.trans hc); decide)
    ⟨"$b-a-gap".toList, .var, "$b-a-gap".toList, "$b-a-gap: 1px".toList, some ⟨⟨1, 16⟩, ⟨1, 19⟩⟩, none⟩
    (by decide +kernel)
  obtain rfl := Option.some.inj hspan
  exact hat

end SassModules
