import SassModules.Definition
import SassModules.Proofs.Depth
import SassModules.Proofs.Placement
import SassModules.Proofs.Search
import SassModules.Proofs.Token

/-!
# Where a cursor leads

What a cursor leads to is written there. The search for a definition is taken apart step by step: an alias leads to a
module (`Workspace.aliasLeadsTo_of_resolveAlias`), a member along its greedy walk to a text in which the name at the end
of the walk is looked up (`exists_walk_of_resolveMember`), and what is found in a text stands at the place that it
carries. So the location of a member spells its definition, that of an argument the parameter that it names, and that of
an alias is the start of a file (`find_spells_definition`).
-/

namespace SassModules

open Forwarding Hop Session

/-! ## What is written at a location -/

/-- The location points at a column of a line, in the text that its file reads as. -/
def PointsAt (s : Session) (loc : Location) (line : Text) (column : Nat) : Prop :=
  ∃ text, ∃ n : Nat, s.reads loc.file = .ok text ∧ text.lines[n]? = some line ∧ loc.line = n ∧ loc.column = column

/-- At the location stands a name, in a line of code, where it is bound as a variable or defined as a mixin. -/
def SpellsDefinition (s : Session) (loc : Location) (name : Text) : Prop :=
  ∃ line column, PointsAt s loc line column ∧ Source.isCommentLine line = false ∧ name <+: line.drop column ∧
    if Name.isVariable name then BindsAt line column name else DefinesAt line column name

/-- At the location stands a mention of the parameter, or else the mixin with its keyword. -/
def SpellsParameter (s : Session) (loc : Location) (m : Mixin) (name : Text) : Prop :=
  ∃ line column, PointsAt s loc line column ∧
    (MentionsAt line column name ∨ loc = ⟨m.file, m.line, m.column⟩ ∧ KeywordAt line column)

/-! ## The module of an alias -/

/-- The alias is bound by a `@use` of the document whose path resolves to the module. -/
def AliasLeadsTo (w : Workspace) (s : Session) (d : Document) (aliasName : Text) (module : Path) : Prop :=
  ∃ i, Import.find? d.text aliasName = some i ∧ w.target? s d.file i.path = some module

/-- An alias that is resolved leads to the module. -/
theorem Workspace.aliasLeadsTo_of_resolveAlias {w : Workspace} {s : Session} {d : Document} {aliasName : Text}
    {module : Path} (h : answer (w.resolveAlias d.text aliasName d.file) s = .ok (some module)) :
    AliasLeadsTo w s d aliasName module := by
  obtain ⟨imports, himports, h⟩ := (steady_imports d.text).gives_bind (gives_of_answer h)
  rw [answer_imports] at himports
  obtain rfl := Except.ok.inj himports
  cases hfind : (Import.scan d.text).find? (·.aliasName == aliasName) with
  | none =>
    rw [hfind] at h
    cases eq_of_gives_reported h
  | some i =>
    rw [hfind] at h
    have h := gives_of_report_bind h
    cases hbuiltin : ModulePath.isBuiltin i.path with
    | true =>
      rw [hbuiltin] at h
      cases eq_of_gives_reported h
    | false =>
      rw [hbuiltin] at h
      obtain ⟨found, hfound, h⟩ := (w.steady_resolve d.file i.path).gives_bind h
      cases found with
      | none => cases eq_of_gives_reported h
      | some path =>
        obtain rfl := Option.some.inj (eq_of_gives_reported h)
        exact ⟨i, hfind, target?_of_ok hfound⟩

theorem Workspace.steady_resolveAlias (w : Workspace) (content aliasName : Text) (file : Path) :
    Steady (w.resolveAlias content aliasName file) := by
  refine (steady_imports content).bind fun imports => ?_
  cases imports.find? (·.aliasName == aliasName) with
  | none => exact steady_reported _ none
  | some i =>
    refine (steady_report _).bind fun _ => Steady.ite (steady_reported _ none) ?_
    exact (w.steady_resolve file i.path).bind (Steady.option (fun path => steady_reported _ _) (steady_reported _ none))

/-! ## The definition of a member -/

section Member

variable {w : Workspace} {s : Session} {module : Path} {member : Text} {m : Member}

/-- A member that is resolved is looked up at the end of its greedy walk. -/
theorem exists_walk_of_resolveMember (h : answer (w.resolveMember module member) s = .ok (some m)) :
    ∃ content hs e text, s.reads module = .ok content ∧ Greedy w s [] content module member hs e ∧
      s.reads e.file = .ok text ∧ answer (Workspace.definedIn text e.name e.file) s = .ok (some m) := by
  rw [w.answer_resolveMember] at h
  obtain ⟨content, hcontent, h⟩ := bind_eq_ok.1 h
  obtain ⟨found, hfound, h⟩ := bind_eq_ok.1 h
  rw [mapError_eq_ok] at hcontent
  rw [answer_find] at hfound
  obtain ⟨hs, e, hwalk, rfl⟩ := findWithin_greedy _ [] content member module found hfound
  cases hs with
  | nil =>
    obtain rfl := hwalk.eq_of_nil
    exact ⟨content, [], _, content, hcontent, hwalk, hcontent, h⟩
  | cons hop hs =>
    obtain ⟨text, htext, h⟩ := bind_eq_ok.1 h
    rw [mapError_eq_ok] at htext
    exact ⟨content, hop :: hs, e, text, hcontent, hwalk, htext, h⟩

/-- The prefixes of a chain, the first one in front. -/
def Hop.prefixes (hs : List Hop) : Text := hs.flatMap fun h => h.decl.pre.getD []

/-- A walk takes its prefixes off the front of the bare name. -/
theorem Greedy.bare_eq {V : OpenFiles} {content : Text} {file : Path} {hs : List Hop} {e : Origin}
    (h : Greedy w s V content file member hs e) (hm : '$' ∉ Name.bare member) :
    Name.bare member = Hop.prefixes hs ++ Name.bare e.name := by
  induction h with
  | stop _ => rfl
  | @step V content text file member o hop hs e _ _ hname _ _ ih =>
    calc Name.bare member
      _ = hop.decl.pre.getD [] ++ Name.bare o := Name.bare_of_stripPrefix? hm hname
      _ = hop.decl.pre.getD [] ++ (Hop.prefixes hs ++ Name.bare e.name) := by
        rw [ih (Name.sigil_of_stripPrefix? hm hname).2]
      _ = Hop.prefixes (hop :: hs) ++ Name.bare e.name := (List.append_assoc _ _ _).symm

/-- What is defined in a text as a mixin is found there as one. -/
theorem find?_of_definedIn_mixin {text name : Text} {file : Path} {x : Mixin}
    (h : answer (Workspace.definedIn text name file) s = .ok (some (.mixin x))) :
    Mixin.find? text name file = some x := by
  rw [Workspace.answer_definedIn] at h
  have h := Except.ok.inj h
  split at h
  · obtain ⟨v, -, hv⟩ := Option.map_eq_some_iff.1 h
    cases hv
  · obtain ⟨x', hx, hx'⟩ := Option.map_eq_some_iff.1 h
    obtain rfl := Member.mixin.inj hx'
    exact hx

/-- A definition that is found in a text stands at its location. -/
theorem spellsDefinition_of_definedIn {text name : Text} {file : Path} (hread : s.reads file = .ok text)
    (h : answer (Workspace.definedIn text name file) s = .ok (some m)) :
    (Definition.locationOf m).file = file ∧ SpellsDefinition s (Definition.locationOf m) name := by
  rw [Workspace.answer_definedIn] at h
  have h := Except.ok.inj h
  unfold SpellsDefinition
  split at h
  · rename_i hvar
    obtain ⟨v, hv, rfl⟩ := Option.map_eq_some_iff.1 h
    obtain ⟨rfl, line, hline, hcode, hbinds⟩ := Variable.find?_place hv
    refine ⟨rfl, line, v.column, ⟨text, v.line, hread, hline, rfl, rfl⟩, hcode, ?_, ?_⟩
    · obtain ⟨b, rest, -, hdrop⟩ := hbinds
      exact ⟨_, hdrop.symm⟩
    · rw [if_pos hvar]
      exact hbinds
  · rename_i hvar
    obtain ⟨x, hx, rfl⟩ := Option.map_eq_some_iff.1 h
    obtain ⟨rfl, line, hline, hcode, -, hdefines⟩ := Mixin.find?_place hx
    refine ⟨rfl, line, x.nameColumn, ⟨text, x.line, hread, hline, rfl, rfl⟩, hcode, hdefines.drop_eq, ?_⟩
    rw [if_neg hvar]
    exact hdefines

/-- A parameter of a mixin that is found in a text stands at its location. -/
theorem spellsParameter_of_definedIn {text name : Text} {file : Path} {x : Mixin} {p : Parameter}
    (hread : s.reads file = .ok text) (h : answer (Workspace.definedIn text name file) s = .ok (some (.mixin x)))
    (hp : p ∈ x.parameters) : SpellsParameter s ⟨x.file, p.line, p.column⟩ x p.name := by
  have hx := find?_of_definedIn_mixin h
  obtain ⟨hfile, -⟩ := Mixin.find?_place hx
  obtain ⟨line, hline, hspelt⟩ := Mixin.find?_parameter_place hx hp
  refine ⟨line, p.column, ⟨text, p.line, hfile ▸ hread, hline, rfl, rfl⟩, ?_⟩
  rcases hspelt with hmention | ⟨hl, hc, hkeyword⟩
  · exact Or.inl hmention
  · exact Or.inr ⟨by rw [hl, hc], hkeyword⟩

end Member

/-! ## What a cursor leads to -/

namespace Definition

variable {w : Workspace} {s : Session} {d : Document} {loc : Location}

/-- A reference leads to the start of its module or to the definition of its member. -/
theorem exists_of_ofReference {r : Reference} (h : Gives (ofReference w d r) s (some loc)) :
    ∃ module, AliasLeadsTo w s d r.aliasName module ∧ (r.target = .namespacePart → loc = ⟨module, 0, 0⟩) ∧
      (r.target = .memberPart → ∃ m, answer (w.resolveMember module r.member) s = .ok (some m) ∧
        loc = locationOf m) := by
  obtain ⟨found, hfound, h⟩ := (w.steady_resolveAlias d.text r.aliasName d.file).gives_bind h
  cases found with
  | none => cases eq_of_gives_pure h
  | some module =>
    refine ⟨module, w.aliasLeadsTo_of_resolveAlias hfound, fun htarget => ?_, fun htarget => ?_⟩
    · rw [htarget] at h
      exact (Option.some.inj (eq_of_gives_reported h)).symm
    · rw [htarget] at h
      obtain ⟨found, hfound, h⟩ := (w.steady_resolveMember module r.member).gives_bind h
      cases found with
      | none => cases eq_of_gives_reported h
      | some m => exact ⟨m, hfound, (Option.some.inj (eq_of_gives_reported h)).symm⟩

/-- An argument leads to a parameter of its name, of the mixin that is called. -/
theorem exists_of_ofArgument {a : Argument} (h : Gives (ofArgument w d a) s (some loc)) :
    ∃ module m p, AliasLeadsTo w s d a.aliasName module ∧
      answer (w.resolveMember module a.mixin) s = .ok (some (.mixin m)) ∧ p ∈ m.parameters ∧ p.name = a.name ∧
      loc = ⟨m.file, p.line, p.column⟩ := by
  obtain ⟨found, hfound, h⟩ := (w.steady_resolveAlias d.text a.aliasName d.file).gives_bind h
  cases found with
  | none => cases eq_of_gives_pure h
  | some module =>
    have halias := w.aliasLeadsTo_of_resolveAlias hfound
    obtain ⟨found, hfound, h⟩ := (w.steady_resolveMember module a.mixin).gives_bind h
    rcases found with _ | m | v
    · cases eq_of_gives_reported h
    · cases hempty : m.parameters.isEmpty with
      | true =>
        simp only [hempty] at h
        cases eq_of_gives_reported h
      | false =>
        simp only [hempty] at h
        cases hp : m.parameter? a.name with
        | none =>
          simp only [hp] at h
          cases eq_of_gives_reported h
        | some p =>
          simp only [hp] at h
          exact ⟨module, m, p, halias, hfound, List.mem_of_find?_eq_some hp, by simpa using List.find?_some hp,
            (Option.some.inj (eq_of_gives_reported h)).symm⟩
    · cases eq_of_gives_reported h

/-- A cursor that leads somewhere is in a workspace and on an argument or a reference, which leads there. -/
theorem exists_of_find {includePaths : List Path} {p : Position}
    (h : answer (find includePaths d p) s = .ok (some loc)) :
    ∃ root, d.root = some root ∧
      ((Argument.at? (d.lineAt p.line) p.character).isSome = true ∨
        (Reference.at? (d.lineAt p.line) p.character).isSome = true) ∧
      (∀ a, Argument.at? (d.lineAt p.line) p.character = some a →
        Gives (ofArgument ⟨root, includePaths⟩ d a) s (some loc)) ∧
      ∀ r, Reference.at? (d.lineAt p.line) p.character = some r →
        Gives (ofReference ⟨root, includePaths⟩ d r) s (some loc) := by
  have hsearch : answer (search includePaths d p) s = .ok (some loc) := by
    unfold find at h
    rw [answer_tryCatch] at h
    cases hx : answer (search includePaths d p) s with
    | ok found => rw [hx] at h; exact h
    | error e => rw [hx] at h; cases h
  have h := gives_of_report_bind (gives_of_answer hsearch)
  cases hroot : d.root with
  | none =>
    rw [hroot] at h
    cases eq_of_gives_reported h
  | some root =>
    rw [hroot] at h
    refine ⟨root, rfl, ?_⟩
    cases ha : Argument.at? (d.lineAt p.line) p.character with
    | some a =>
      simp only [ha] at h
      -- an argument is tried first, but on an argument there is no reference
      rw [Reference.at?_of_argument ha]
      refine ⟨Or.inl rfl, ?_, nofun⟩
      rintro _ ⟨⟩
      exact gives_of_report_bind h
    | none =>
      simp only [ha] at h
      cases hr : Reference.at? (d.lineAt p.line) p.character with
      | none =>
        simp only [hr] at h
        cases eq_of_gives_reported h
      | some r =>
        simp only [hr] at h
        refine ⟨Or.inr rfl, nofun, ?_⟩
        rintro _ ⟨⟩
        exact gives_of_report_bind h

end Definition

/-- **A location spells what the cursor is on.** On a member it is the definition, under the name that a chain of
forwards leaves of the member; on an argument it is the parameter, or else the mixin; on an alias it is the start of a
file. -/
theorem find_spells_definition {includePaths : List Path} {d : Document} {p : Position} {s : Session} {loc : Location}
    (h : answer (Definition.find includePaths d p) s = .ok (some loc)) :
    ∃ w : Workspace, d.root = some w.root ∧ w.includePaths = includePaths ∧
      ((Argument.at? (d.lineAt p.line) p.character).isSome = true ∨
        (Reference.at? (d.lineAt p.line) p.character).isSome = true) ∧
      (∀ r, Reference.at? (d.lineAt p.line) p.character = some r → r.target = .memberPart →
        ∃ module content hs name, AliasLeadsTo w s d r.aliasName module ∧ s.reads module = .ok content ∧
          IsChain w s content module hs ∧ loc.file = endFile module hs ∧ Name.sigil name = Name.sigil r.member ∧
          Name.bare r.member = Hop.prefixes hs ++ Name.bare name ∧ SpellsDefinition s loc name) ∧
      (∀ a, Argument.at? (d.lineAt p.line) p.character = some a →
        ∃ module m, AliasLeadsTo w s d a.aliasName module ∧
          answer (w.resolveMember module a.mixin) s = .ok (some (.mixin m)) ∧ loc.file = m.file ∧
          SpellsParameter s loc m a.name) ∧
      ∀ r, Reference.at? (d.lineAt p.line) p.character = some r → r.target = .namespacePart →
        AliasLeadsTo w s d r.aliasName loc.file ∧ loc.line = 0 ∧ loc.column = 0 ∧ s.disk.isFile loc.file = true := by
  obtain ⟨root, hroot, hcursor, hargument, hreference⟩ := Definition.exists_of_find h
  refine ⟨⟨root, includePaths⟩, hroot, rfl, hcursor, ?_, ?_, ?_⟩
  · intro r hr hmember
    obtain ⟨module, halias, -, hfound⟩ := Definition.exists_of_ofReference (hreference r hr)
    obtain ⟨m, hm, rfl⟩ := hfound hmember
    obtain ⟨content, hs, e, text, hcontent, hwalk, htext, hdefined⟩ := exists_walk_of_resolveMember hm
    obtain ⟨hfile, hspelt⟩ := spellsDefinition_of_definedIn htext hdefined
    have hbare := Name.not_mem_bare_of_isMemberName (Reference.isMemberName_of_at? hr)
    exact ⟨module, content, hs, e.name, halias, hcontent, hwalk.isChain, hfile.trans hwalk.file_eq,
      (hwalk.addPrefixes hbare).2, hwalk.bare_eq hbare, hspelt⟩
  · intro a ha
    obtain ⟨module, m, q, halias, hm, hq, hname, rfl⟩ := Definition.exists_of_ofArgument (hargument a ha)
    obtain ⟨_, _, _, _, -, -, htext, hdefined⟩ := exists_walk_of_resolveMember hm
    exact ⟨module, m, halias, hm, rfl, hname ▸ spellsParameter_of_definedIn htext hdefined hq⟩
  · intro r hr hnamespace
    obtain ⟨module, halias, hfound, -⟩ := Definition.exists_of_ofReference (hreference r hr)
    obtain rfl := hfound hnamespace
    obtain ⟨i, -, htarget⟩ := id halias
    exact ⟨halias, rfl, rfl, Workspace.isFile_target? htarget⟩

/-! ## A document above the ring -/

namespace Ring

/-- The text of `/box.scss`: a mixin whose parameters stand on lines of their own. -/
def textBox : Text := "// @mixin pad($y)\n@mixin pad(\n  $x, // $y\n  $y: 2px\n) \x7b \x7d".toList

def fileBox : Path := ⟨.root, ["box.scss".toList]⟩

/-- A disk with the ring and the mixin. -/
def diskBox : Disk := disk.insert fileBox.names (.file (Utf8.encode textBox))

/-- A document that calls the mixin with a variable from around the ring. -/
def card : Document where
  file := ⟨.root, ["card.scss".toList]⟩
  text := "@use \"./a\";\n@use \"./box\";\n.card \x7b @include box.pad($y: a.$b-a-gap); \x7d".toList
  root := some ⟨.root, []⟩

end Ring

/-- On the member, on the argument and on the alias of one line. -/
theorem find_spells_definition_ring :
    (answer (Definition.find [] Ring.card ⟨2, 34⟩) (.start Ring.diskBox) = .ok (some ⟨Ring.fileA, 1, 0⟩) ∧
      ∃ module content hs name, AliasLeadsTo Ring.workspace (.start Ring.diskBox) Ring.card "a".toList module ∧
        (Session.start Ring.diskBox).reads module = .ok content ∧
        IsChain Ring.workspace (.start Ring.diskBox) content module hs ∧ Ring.fileA = endFile module hs ∧
        Name.sigil name = "$".toList ∧ "b-a-gap".toList = Hop.prefixes hs ++ Name.bare name ∧
        SpellsDefinition (.start Ring.diskBox) ⟨Ring.fileA, 1, 0⟩ name) ∧
    (answer (Definition.find [] Ring.card ⟨2, 26⟩) (.start Ring.diskBox) = .ok (some ⟨Ring.fileBox, 3, 2⟩) ∧
      ∃ module m, AliasLeadsTo Ring.workspace (.start Ring.diskBox) Ring.card "box".toList module ∧
        answer (Ring.workspace.resolveMember module "pad".toList) (.start Ring.diskBox) = .ok (some (.mixin m)) ∧
        Ring.fileBox = m.file ∧ SpellsParameter (.start Ring.diskBox) ⟨Ring.fileBox, 3, 2⟩ m "y".toList) ∧
    answer (Definition.find [] Ring.card ⟨2, 29⟩) (.start Ring.diskBox) = .ok (some ⟨Ring.fileA, 0, 0⟩) ∧
      AliasLeadsTo Ring.workspace (.start Ring.diskBox) Ring.card "a".toList Ring.fileA ∧
      (Session.start Ring.diskBox).disk.isFile Ring.fileA = true := by
  have hmember : answer (Definition.find [] Ring.card ⟨2, 34⟩) (.start Ring.diskBox) =
      .ok (some ⟨Ring.fileA, 1, 0⟩) := by decide +kernel
  have hargument : answer (Definition.find [] Ring.card ⟨2, 26⟩) (.start Ring.diskBox) =
      .ok (some ⟨Ring.fileBox, 3, 2⟩) := by decide +kernel
  have halias : answer (Definition.find [] Ring.card ⟨2, 29⟩) (.start Ring.diskBox) =
      .ok (some ⟨Ring.fileA, 0, 0⟩) := by decide +kernel
  refine ⟨⟨hmember, ?_⟩, ⟨hargument, ?_⟩, halias, ?_⟩
  · obtain ⟨⟨_, _⟩, ⟨⟩, rfl, -, hspelt, -, -⟩ := find_spells_definition hmember
    exact hspelt ⟨"a".toList, "$b-a-gap".toList, .memberPart, 29, 39⟩ (by decide +kernel) rfl
  · obtain ⟨⟨_, _⟩, ⟨⟩, rfl, -, -, hspelt, -⟩ := find_spells_definition hargument
    exact hspelt ⟨"box".toList, "pad".toList, "y".toList⟩ (by decide +kernel)
  · obtain ⟨⟨_, _⟩, ⟨⟩, rfl, -, -, -, hstart⟩ := find_spells_definition halias
    obtain ⟨hleads, -, -, hfile⟩ :=
      hstart ⟨"a".toList, "$b-a-gap".toList, .namespacePart, 29, 39⟩ (by decide +kernel) rfl
    exact ⟨hleads, hfile⟩

end SassModules
