import SassModules.Proofs.Coherence
import SassModules.Proofs.Outcome
import SassModules.Proofs.Touching

/-!
# A cursor points one way

A cursor can be read as being on an argument of a call or on a reference. The two readings exclude each other
(`Reference.at?_of_argument`), so the search for a definition may try them in either order (`search_eq_referenceFirst`).
What the search answers for a reference depends on the reference alone (`answer_search_of_reference`), and the reference
is the same for every cursor behind the dot of a token; so all of these lead to one place (`cursor_points_one_way`).
-/

namespace SassModules.Definition

open Session

variable {includePaths : List Path} {d : Document} {p p' : Position} {s : Session} {root : Path} {r : Reference}

/-! ## Either order -/

/-- The place that a cursor leads to, with references tried before arguments; faults come out. -/
def searchReferenceFirst (includePaths : List Path) (d : Document) (p : Position) : Query (Option Location) := do
  Session.report (.definitionAsked d.file p)
  match d.root with
  | none =>
    Session.report .noWorkspace
    return none
  | some root =>
    let w : Workspace := ⟨root, includePaths⟩
    let line := d.lineAt p.line
    match Reference.at? line p.character with
    | some r =>
      Session.report (.referenceAsked r)
      ofReference w d r
    | none =>
      match Argument.at? line p.character with
      | none =>
        Session.report .noToken
        return none
      | some a =>
        Session.report (.argumentAsked a)
        ofArgument w d a

/-- The place that a cursor leads to, with references tried before arguments. -/
def findReferenceFirst (includePaths : List Path) (d : Document) (p : Position) : Query (Option Location) :=
  tryCatch (searchReferenceFirst includePaths d p) fun _ => do
    Session.report .definitionFailed
    return none

theorem search_eq_referenceFirst (includePaths : List Path) (d : Document) (p : Position) :
    search includePaths d p = searchReferenceFirst includePaths d p := by
  unfold search searchReferenceFirst
  cases d.root with
  | none => rfl
  | some root =>
    dsimp only
    cases ha : Argument.at? (d.lineAt p.line) p.character with
    | some a => rw [Reference.at?_of_argument ha]
    | none => cases Reference.at? (d.lineAt p.line) p.character <;> rfl

/-! ## What a reference decides -/

theorem answer_search_of_no_root (hroot : d.root = none) : answer (search includePaths d p) s = .ok none := by
  unfold search
  rw [hroot]
  rfl

/-- On a reference, the search answers what the reference leads to, wherever the cursor is. -/
theorem answer_search_of_reference (hroot : d.root = some root)
    (h : Reference.at? (d.lineAt p.line) p.character = some r) :
    answer (search includePaths d p) s = answer (ofReference ⟨root, includePaths⟩ d r) s := by
  have hreport := (steady_report (.referenceAsked r)).bind fun _ => steady_ofReference ⟨root, includePaths⟩ d r
  rw [search_eq_referenceFirst, searchReferenceFirst, hroot]
  dsimp only
  rw [h]
  exact (answer_report_bind _ hreport s).trans (answer_report_bind _ (steady_ofReference _ d r) s)

/-- The answer at a cursor is made from the answer of the search. -/
theorem answer_find_congr (h : answer (search includePaths d p) s = answer (search includePaths d p') s) :
    answer (find includePaths d p) s = answer (find includePaths d p') s := by
  rw [find, find, answer_tryCatch, answer_tryCatch, h]
  cases answer (search includePaths d p') s <;> rfl

/-- Cursors on one reference, with one target, lead to one place. -/
theorem answer_find_eq_of_reference (h : Reference.at? (d.lineAt p.line) p.character = some r)
    (h' : Reference.at? (d.lineAt p'.line) p'.character = some r) :
    answer (find includePaths d p) s = answer (find includePaths d p') s := by
  apply answer_find_congr
  cases hroot : d.root with
  | none => rw [answer_search_of_no_root hroot, answer_search_of_no_root hroot]
  | some root => rw [answer_search_of_reference hroot h, answer_search_of_reference hroot h']

/-- **A cursor points one way.** No cursor is both on an argument and on a reference, so a definition is found the same
whichever is tried first; and from every cursor behind the dot of a reference, up to its end, the same place is found, in
this session and in every one that looks like it, such as the session after an earlier search. -/
theorem cursor_points_one_way (includePaths : List Path) (d : Document) :
    (∀ (line : Text) (character : Int), Argument.at? line character = none ∨ Reference.at? line character = none) ∧
    (∀ p, find includePaths d p = findReferenceFirst includePaths d p) ∧
    ∀ (n character : Int) (r : Reference), Reference.at? (d.lineAt n) character = some r → ∀ s : Session,
      ∃ found, ∀ t, t ≈ s → ∀ c : Int, r.start + r.aliasName.length < c → c ≤ r.stop →
        answer (find includePaths d ⟨n, c⟩) t = .ok found := by
  refine ⟨fun line character => ?_, fun p => ?_, fun n character r h s => ?_⟩
  · cases ha : Argument.at? line character with
    | none => exact Or.inl rfl
    | some a => exact Or.inr (Reference.at?_of_argument ha)
  · rw [find, findReferenceFirst, search_eq_referenceFirst]
  -- every cursor behind the dot is compared with the one at the end of the token
  · obtain ⟨found, hfound⟩ := exists_answer_find includePaths d ⟨n, r.stop⟩ s
    refine ⟨found, fun t ht c hdot hc => ?_⟩
    have hstop : r.start + r.aliasName.length < (r.stop : Int) := Int.lt_of_lt_of_le hdot hc
    rw [(steady_find includePaths d ⟨n, c⟩).answer_eq ht, ← hfound]
    exact answer_find_eq_of_reference (Reference.at?_behind_dot h hdot hc)
      (Reference.at?_behind_dot h hstop (Int.le_refl _))

/-- A reference in the argument list of a call: found from its alias, it leads to one place from behind its dot on. -/
theorem cursor_points_one_way_ring :
    Reference.at? (Ring.card.lineAt 2) 29 = some ⟨"a".toList, "$b-a-gap".toList, .namespacePart, 29, 39⟩ ∧
    Argument.at? (Ring.card.lineAt 2) 26 = some ⟨"box".toList, "pad".toList, "y".toList⟩ ∧
    Reference.at? (Ring.card.lineAt 2) 26 = none ∧
    answer (find [] Ring.card ⟨2, 31⟩) (.start Ring.diskBox) = .ok (some ⟨Ring.fileA, 1, 0⟩) ∧
    answer (find [] Ring.card ⟨2, 39⟩) (after (find [] Ring.card ⟨2, 31⟩) (.start Ring.diskBox)) =
      .ok (some ⟨Ring.fileA, 1, 0⟩) := by
  have hat : Reference.at? (Ring.card.lineAt 2) 29 =
      some ⟨"a".toList, "$b-a-gap".toList, .namespacePart, 29, 39⟩ := by decide +kernel
  have hargument : Argument.at? (Ring.card.lineAt 2) 26 = some ⟨"box".toList, "pad".toList, "y".toList⟩ := by
    decide +kernel
  have hfirst : answer (find [] Ring.card ⟨2, 31⟩) (.start Ring.diskBox) = .ok (some ⟨Ring.fileA, 1, 0⟩) := by
    decide +kernel
  obtain ⟨hexclude, -, hsame⟩ := cursor_points_one_way [] Ring.card
  obtain ⟨found, hfound⟩ := hsame 2 29 _ hat (.start Ring.diskBox)
  have h31 := hfound _ (Setoid.refl _) 31 (by decide) (by decide)
  have h39 := hfound _ ((steady_find [] Ring.card ⟨2, 31⟩).after_equiv _) 39 (by decide) (by decide)
  refine ⟨hat, hargument, ?_, hfirst, ?_⟩
  · exact (hexclude _ 26).resolve_left (by rw [hargument]; exact Option.some_ne_none _)
  · rw [h39, ← h31, hfirst]

end SassModules.Definition
