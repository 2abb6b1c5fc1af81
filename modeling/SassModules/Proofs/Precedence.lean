import SassModules.Proofs.Candidates
import SassModules.Proofs.Collapsing
import SassModules.Proofs.Reading

/-!
# In which order candidates are tried

Resolving takes the first regular file of one list. Here the list is written out (`Workspace.precedence`) in terms of what
collapsing is (`Path.IsCollapsed`) and of what the texts of manifests spell (`Json.Spells`), not of the functions that
collapse and read: the eight files of a relative path, or, level by level, what the manifest of a package names and the
eight files of the package, and after the levels the eight files in each include path. The levels are the directories above
a file that are not above the root, or all of them when the root is not among them (`Resolution.levels`). A manifest names
the first string among two fields that is not empty (`Manifest.Names`); one that is missing, unreadable or no object names
nothing. A manifest with a number that has too many digits is a try that ends the work (`Manifest.HasLongNumber`).
-/

namespace SassModules

/-! ## Levels -/

namespace Path

/-- The path and the directories above it, nearest first. -/
def upward (p : Path) : List Path := p.names.inits.reverse.map (Path.mk p.anchor)

theorem upward_nil (a : Anchor) : upward ⟨a, []⟩ = [⟨a, []⟩] := rfl

/-- The directories above a path with a last name: itself, and those above its parent. -/
theorem upward_concat (a : Anchor) (ns : List Text) (n : Text) :
    upward ⟨a, ns ++ [n]⟩ = ⟨a, ns ++ [n]⟩ :: upward ⟨a, ns⟩ := by
  simp [upward, List.inits_append]

theorem ancestors_eq_upward (a : Anchor) (ns : List Text) : ancestors ⟨a, ns⟩ = upward ⟨a, ns⟩ := by
  induction ns using List.reverseRecOn with
  | nil => rfl
  | append_singleton ns n ih =>
    rw [upward_concat, ← ih]
    simp only [ancestors, List.length_append, List.length_singleton]
    rw [List.range_succ_eq_map, List.map_cons, List.map_map]
    congr 1
    · rw [Nat.sub_zero, List.take_of_length_le (by simp)]
    · refine List.map_congr_left fun k hk => ?_
      have hk := List.mem_range.1 hk
      have hle : ns.length + 1 - (k + 1) ≤ ns.length := by omega
      simp only [Function.comp_apply, List.take_append_of_le_length hle, Nat.add_sub_add_right]

theorem mem_upward {p q : Path} : q ∈ p.upward ↔ q.anchor = p.anchor ∧ q.names <+: p.names := by
  obtain ⟨a, ns⟩ := q
  simp [upward, eq_comm, and_comm]

end Path

namespace Resolution

/-- The directories from one upward: those that are not above the root, when the root is one of them, and else all. -/
def levels (root dir : Path) : List Path :=
  if root ∈ dir.upward then dir.upward.filter (root.names <+: ·.names) else dir.upward

theorem upToFirst_eq_self {α : Type} {p : α → Bool} : ∀ {as : List α}, (∀ a ∈ as, p a = false) → upToFirst p as = as
  | [], _ => rfl
  | a :: as, h => by
    rw [upToFirst, h a List.mem_cons_self, if_neg Bool.false_ne_true,
      upToFirst_eq_self fun b hb => h b (List.mem_cons_of_mem a hb)]

/-- Going up from a directory ends with the root, which leaves out what is above it. -/
theorem upToFirst_upward {root : Path} (a : Anchor) : ∀ {ns : List Text}, root ∈ Path.upward ⟨a, ns⟩ →
    upToFirst (· == root) (Path.upward ⟨a, ns⟩) = (Path.upward ⟨a, ns⟩).filter (root.names <+: ·.names) := by
  intro ns
  induction ns using List.reverseRecOn with
  | nil =>
    intro h
    rw [Path.upward_nil, List.mem_singleton] at h
    subst h
    simp [Path.upward_nil, upToFirst]
  | append_singleton ns n ih =>
    intro h
    have hkeep : List.filter (root.names <+: ·.names) (Path.upward ⟨a, ns ++ [n]⟩) =
        ⟨a, ns ++ [n]⟩ :: (Path.upward ⟨a, ns⟩).filter (root.names <+: ·.names) := by
      rw [Path.upward_concat, List.filter_cons_of_pos (by simpa using (Path.mem_upward.1 h).2)]
    rw [hkeep, Path.upward_concat, upToFirst]
    by_cases hroot : (⟨a, ns ++ [n]⟩ : Path) = root
    · -- the root itself: everything further up is shorter
      rw [if_pos (by simpa using hroot), List.filter_eq_nil_iff.2]
      intro q hq hmem
      have hshort : q.names.length ≤ ns.length := (Path.mem_upward.1 hq).2.length_le
      have hlong := (of_decide_eq_true hmem).length_le
      rw [← hroot, List.length_append, List.length_singleton] at hlong
      omega
    · rw [if_neg (by simpa using hroot)]
      rw [Path.upward_concat, List.mem_cons] at h
      rw [ih (h.resolve_left fun e => hroot e.symm)]

/-- The directories that are searched for packages are the levels of the directory of the file. -/
theorem searchDirs_eq_levels (root file : Path) :
    searchDirs root file = levels root.normalize file.parent.normalize := by
  unfold searchDirs levels
  rw [Path.ancestors_eq_upward]
  by_cases h : root.normalize ∈ file.parent.normalize.upward
  · rw [if_pos h]
    exact upToFirst_upward _ h
  · rw [if_neg h]
    exact upToFirst_eq_self fun a ha => beq_eq_false_iff_ne.2 fun e => h (e ▸ ha)

end Resolution

/-! ## Manifests -/

namespace Manifest

open Json (Spells IsBlank HasLong)

/-- The value that a name has in an object, where the last field of a name counts. -/
def IsField (fields : List (Text × Json)) (name : String) (v : Json) : Prop :=
  ∃ before after, fields = before ++ (name.toList, v) :: after ∧ ∀ f ∈ after, f.1 ≠ name.toList

/-- A string, of any characters, that is not empty. -/
def IsNonEmptyString (v : Json) : Prop := (∃ t, t ≠ [] ∧ v = .string t) ∨ ∃ points, v = .unpaired points

/-- The first string that is not empty among the two fields for stylesheets. -/
def IsEntry (fields : List (Text × Json)) (v : Json) : Prop :=
  IsNonEmptyString v ∧ (IsField fields "sass" v ∨
    (∀ u, IsField fields "sass" u → ¬ IsNonEmptyString u) ∧ IsField fields "style" v)

/-- The manifest of a package is a regular file with this text. -/
def Holds (s : Session) (package : Path) (text : Text) : Prop :=
  s.disk.isFile (package.child "package.json".toList) = true ∧
    s.reads (package.child "package.json".toList) = .ok text

/-- The manifest of a package spells an object that names the stylesheet. -/
def Names (s : Session) (package : Path) (entry : Text) : Prop :=
  ∃ b t b' fields, Holds s package (b ++ (t ++ b')) ∧ IsBlank b ∧ IsBlank b' ∧ Spells t (.value (.object fields)) ∧
    IsEntry fields (.string entry)

/-- A whole number with so many digits, too many, comes before anything that is malformed in the manifest. -/
def HasLongNumber (s : Session) (package : Path) (count : Nat) : Prop :=
  ∃ b t, Holds s package (b ++ t) ∧ IsBlank b ∧ HasLong t count

section Entries

variable {s : Session} {package : Path} {fields : List (Text × Json)} {v : Json} {name : String}

theorem field?_eq_some_iff : (Json.object fields).field? name.toList = some v ↔ IsField fields name v := by
  rw [Json.field?, List.findRev?_eq_find?_reverse, Option.map_eq_some_iff]
  constructor
  · rintro ⟨⟨n, v⟩, hfind, rfl⟩
    obtain ⟨hname, after, before, hfields, hafter⟩ := List.find?_eq_some_iff_append.1 hfind
    refine ⟨before.reverse, after.reverse, ?_, fun f hf => ?_⟩
    · rw [← List.reverse_reverse fields, hfields, ← eq_of_beq hname]
      simp
    · simpa using hafter f (List.mem_reverse.1 hf)
  · rintro ⟨before, after, rfl, hafter⟩
    refine ⟨(name.toList, v), List.find?_eq_some_iff_append.2 ⟨beq_self_eq_true _, after.reverse, before.reverse, ?_, ?_⟩,
      rfl⟩
    · simp
    · exact fun f hf => by simpa using hafter f (List.mem_reverse.1 hf)

theorem isNonEmptyString_iff : isNonEmptyString v = true ↔ IsNonEmptyString v := by
  cases v <;> simp [isNonEmptyString, IsNonEmptyString]

theorem nonEmptyField?_eq_some_iff :
    nonEmptyField? (.object fields) name = some v ↔ IsField fields name v ∧ IsNonEmptyString v := by
  rw [nonEmptyField?, Option.filter_eq_some_iff, field?_eq_some_iff, isNonEmptyString_iff]

theorem entry?_eq_some_iff : entry? (.object fields) = some v ↔ IsEntry fields v := by
  rw [ entry?, Option.orElse_eq_orElse, Option.orElse_eq_or, Option.or_eq_some_iff, Option.eq_none_iff_forall_ne_some]
  simp only [ne_eq, nonEmptyField?_eq_some_iff]
  constructor
  · rintro (⟨hfield, hstring⟩ | ⟨hnone, hfield, hstring⟩)
    · exact ⟨hstring, Or.inl hfield⟩
    · exact ⟨hstring, Or.inr ⟨fun u hu hu' => hnone u ⟨hu, hu'⟩, hfield⟩⟩
  · rintro ⟨hstring, hfield | ⟨hnone, hfield⟩⟩
    · exact Or.inl ⟨hfield, hstring⟩
    · exact Or.inr ⟨fun u hu => hnone u hu.1 hu.2, hfield, hstring⟩

theorem held_of_reads {p : Path} {text : Text} (h : s.reads p = .ok text) : held s p = objectIn text := by
  simp only [held, h]

theorem objectIn_eq_some_iff {text : Text} : objectIn text = .ok (some v) ↔
    ∃ fields, Json.read text = .ok (.object fields) ∧ v = .object fields := by
  unfold objectIn
  rcases Json.read text with (_ | count) | u
  · simp
  · simp
  · cases u <;> simp [eq_comm]

theorem objectIn_eq_error_iff {text : Text} {count : Nat} : objectIn text = .error (.longNumber (some count)) ↔
    Json.read text = .error (.tooManyDigits count) := by
  unfold objectIn
  rcases Json.read text with (_ | count') | u
  · simp
  · simp
  · cases u <;> simp

/-- What a manifest names is what is read from it. -/
theorem names_iff {entry : Text} : Names s package entry ↔ s.disk.isFile (package.child fileName) = true ∧
    ∃ manifest, held s (package.child fileName) = .ok (some manifest) ∧ entry? manifest = some (.string entry) := by
  constructor
  · rintro ⟨b, t, b', fields, ⟨hfile, hread⟩, hb, hb', ht, hentry⟩
    have hobject := Json.read_eq_ok_iff.2 ⟨b, t, b', hb, ht, hb', rfl⟩
    refine ⟨hfile, .object fields, ?_, entry?_eq_some_iff.2 hentry⟩
    exact (held_of_reads hread).trans (objectIn_eq_some_iff.2 ⟨fields, hobject, rfl⟩)
  · rintro ⟨hfile, manifest, hheld, hentry⟩
    cases hread : s.reads (package.child fileName) with
    | error cause => simp [held, hread] at hheld
    | ok text =>
      rw [held_of_reads hread] at hheld
      obtain ⟨fields, hobject, rfl⟩ := objectIn_eq_some_iff.1 hheld
      obtain ⟨b, t, b', hb, ht, hb', rfl⟩ := Json.read_eq_ok_iff.1 hobject
      exact ⟨b, t, b', fields, ⟨hfile, hread⟩, hb, hb', ht, entry?_eq_some_iff.1 hentry⟩

/-- The fault of a manifest is its number with too many digits. -/
theorem hasLongNumber_iff {count : Nat} : HasLongNumber s package count ↔
    s.disk.isFile (package.child fileName) = true ∧
      held s (package.child fileName) = .error (.longNumber (some count)) := by
  constructor
  · rintro ⟨b, t, ⟨hfile, hread⟩, hb, ht⟩
    have hlong := Json.read_eq_tooManyDigits_iff.2 ⟨b, t, hb, ht, rfl⟩
    exact ⟨hfile, (held_of_reads hread).trans (objectIn_eq_error_iff.2 hlong)⟩
  · rintro ⟨hfile, hheld⟩
    cases hread : s.reads (package.child fileName) with
    | error cause => simp [held, hread] at hheld
    | ok text =>
      rw [held_of_reads hread] at hheld
      obtain ⟨b, t, hb, ht, rfl⟩ := Json.read_eq_tooManyDigits_iff.1 (objectIn_eq_error_iff.1 hheld)
      exact ⟨b, t, ⟨hfile, hread⟩, hb, ht⟩

end Entries

end Manifest

/-! ## The list -/

namespace Resolution

/-- What is tried for the manifest of each package: the stylesheet that it names, whether that exists or not, or the fault
of its number with too many digits, or nothing. -/
structure AreNamed (s : Session) (collapse : Path → Path) (named : Path → List Try) : Prop where
  entry : ∀ package entry, Manifest.Names s package entry → named package = [.file (collapse (package.under entry))]
  fault : ∀ package count, Manifest.HasLongNumber s package count → named package = [.fault (.longNumber (some count))]
  none : ∀ package, (∀ entry, ¬ Manifest.Names s package entry) → (∀ count, ¬ Manifest.HasLongNumber s package count) →
    named package = []

theorem AreNamed.unique {s : Session} {collapse : Path → Path} {named named' : Path → List Try}
    (h : AreNamed s collapse named) (h' : AreNamed s collapse named') : named = named' := by
  funext package
  by_cases hentry : ∃ entry, Manifest.Names s package entry
  · obtain ⟨entry, hentry⟩ := hentry
    rw [h.entry package entry hentry, h'.entry package entry hentry]
  by_cases hfault : ∃ count, Manifest.HasLongNumber s package count
  · obtain ⟨count, hfault⟩ := hfault
    rw [h.fault package count hfault, h'.fault package count hfault]
  rw [h.none package (not_exists.1 hentry) (not_exists.1 hfault),
    h'.none package (not_exists.1 hentry) (not_exists.1 hfault)]

theorem areNamed_namedTries (s : Session) : AreNamed s Path.normalize (namedTries s) where
  entry := by
    intro package entry h
    obtain ⟨hfile, manifest, hheld, hentry⟩ := Manifest.names_iff.1 h
    simp [namedTries, hfile, hheld, hentry, Json.text?, Path.under_eq, seenFrom]
  fault := by
    intro package count h
    obtain ⟨hfile, hheld⟩ := Manifest.hasLongNumber_iff.1 h
    simp [namedTries, hfile, hheld]
  none := by
    intro package hentry hfault
    unfold namedTries
    split
    · rename_i hfile
      rcases hheld : Manifest.held s (package.child Manifest.fileName) with e | manifest
      · obtain ⟨count, rfl⟩ := Manifest.held_fault hheld
        exact absurd (Manifest.hasLongNumber_iff.2 ⟨hfile, hheld⟩) (hfault count)
      · have hnone : (manifest.bind Manifest.entry?).bind Json.text? = none := by
          refine Option.eq_none_iff_forall_ne_some.2 fun entry h => ?_
          obtain ⟨v, hv, htext⟩ := Option.bind_eq_some_iff.1 h
          obtain ⟨manifest, rfl, hv⟩ := Option.bind_eq_some_iff.1 hv
          cases v with
          | string t =>
            obtain rfl := Option.some.inj htext
            exact hentry t (Manifest.names_iff.2 ⟨hfile, manifest, hheld, hv⟩)
          | _ => cases htext
        simp only [hnone]
        rfl
    · rfl

/-- The eight files that a relative path may stand for. -/
def relativeFiles (base : Path) : List Path :=
  [base.parent.child (base.name ++ ".scss".toList), base.parent.child (base.name ++ ".sass".toList),
    base.child "_index.scss".toList, base.child "_index.sass".toList,
    base.child "index.scss".toList, base.child "index.sass".toList,
    base.parent.child ('_' :: base.name ++ ".scss".toList), base.parent.child ('_' :: base.name ++ ".sass".toList)]

/-- The eight files that a package may stand for: the files inside it come first, and the plain index before the
partial one. -/
def filesOfPackage (base : Path) : List Path :=
  [base.child "index.scss".toList, base.child "_index.scss".toList,
    base.child "index.sass".toList, base.child "_index.sass".toList,
    base.parent.child (base.name ++ ".scss".toList), base.parent.child (base.name ++ ".sass".toList),
    base.parent.child ('_' :: base.name ++ ".scss".toList), base.parent.child ('_' :: base.name ++ ".sass".toList)]

theorem relativeCandidates_eq (base : Path) : relativeCandidates base = relativeFiles base := rfl

theorem packageCandidates_eq (base : Path) : packageCandidates base = filesOfPackage base := rfl

end Resolution

namespace Workspace

open Resolution

/-- What is tried for a module path in a file, in order, given what collapsing makes of paths and what the manifests
name. -/
def precedence (w : Workspace) (d : Disk) (collapse : Path → Path) (named : Path → List Try) (file : Path)
    (modulePath : Text) : List Try :=
  if "sass:".toList <+: modulePath then []
  else if "./".toList <+: modulePath ∨ "../".toList <+: modulePath then
    (relativeFiles (collapse (file.parent.under modulePath))).map .file
  else
    let dirs := levels (collapse w.root) (collapse file.parent)
    let holders := dirs.filter fun dir => d.isDir (dir.child "node_modules".toList)
    let packages := holders.map fun dir => collapse ((dir.child "node_modules".toList).under modulePath)
    packages.flatMap (fun package => named package ++ (filesOfPackage package).map .file) ++
      (w.includePaths.flatMap fun dir => filesOfPackage (collapse (dir.under modulePath))).map .file

theorem tries_eq_precedence (w : Workspace) (s : Session) (file : Path) (modulePath : Text) :
    w.tries s file modulePath = w.precedence s.disk Path.normalize (namedTries s) file modulePath := by
  have hbuiltin : ModulePath.isBuiltin modulePath = true ↔ "sass:".toList <+: modulePath := List.isPrefixOf_iff_prefix
  have hrelative : isRelative modulePath = true ↔ "./".toList <+: modulePath ∨ "../".toList <+: modulePath := by
    rw [isRelative, Bool.or_eq_true]
    exact or_congr List.isPrefixOf_iff_prefix List.isPrefixOf_iff_prefix
  have hseen : ∀ dir : Path, (dir.under modulePath).normalize = seenFrom dir modulePath := fun dir => by
    rw [Path.under_eq, seenFrom]
  unfold tries precedence
  simp only [hbuiltin, hrelative, hseen, packageDirs, packageTries, searchDirs_eq_levels, List.filter_map,
    List.flatMap_map, relativeCandidates_eq, packageCandidates_eq]
  rfl

namespace Numbered

/-- A file that loads a package. -/
def file : Path := ⟨.root, ["ws".toList, "a.scss".toList]⟩

def text : Text := "@use \"pkg\";".toList

def package : Path := ⟨.root, ["ws".toList, "node_modules".toList, "pkg".toList]⟩

def index : Path := package.child "index.scss".toList

/-- A disk with the file and the package, whose manifest is a number of `n` digits. -/
def disk (n : Nat) : Disk where
  entries := [([], .dir), (["ws".toList], .dir), (file.names, .file (Utf8.encode text)), (package.names.dropLast, .dir),
    (package.names, .dir), ((package.child "package.json".toList).names, .file (List.replicate n 0x37)),
    (index.names, .file [])]
  cwd := ⟨.root, []⟩
  homes := []
  platform := ⟨true, true⟩

def workspace : Workspace := ⟨⟨.root, ["ws".toList]⟩, []⟩

theorem decodeFrom_digits : ∀ (n position : Nat),
    Utf8.decodeFrom position none (List.replicate n 0x37) = .ok (List.replicate n '7')
  | 0, _ => rfl
  | n + 1, position => by
    rw [List.replicate_succ, List.replicate_succ, Utf8.decodeFrom, decodeFrom_digits n (position + 1)]
    rfl

theorem unifyLineEnds_digits : ∀ n : Nat, Utf8.unifyLineEnds false (List.replicate n '7') = List.replicate n '7'
  | 0 => rfl
  | n + 1 => by
    rw [List.replicate_succ, Utf8.unifyLineEnds.eq_def]
    simp [unifyLineEnds_digits n]

theorem holds (n : Nat) : Manifest.Holds (.start (disk n)) package (List.replicate n '7') := by
  refine ⟨rfl, ?_⟩
  have hbytes : (disk n).readBytes (package.child "package.json".toList) = .ok (List.replicate n 0x37) := rfl
  rw [Session.reads_start, Disk.readText, hbytes, ok_bind, Utf8.decode, decodeFrom_digits]
  exact congrArg Except.ok (unifyLineEnds_digits n)

theorem hasLong {n : Nat} (h : Text.maxDigits < n) : Json.HasLong (List.replicate n '7') n := by
  have hdigits : Json.IsDigits (List.replicate n '7') := by
    refine ⟨?_, fun c hc => by rw [List.eq_of_mem_replicate hc]; rfl⟩
    simpa using Nat.ne_zero_of_lt h
  have hnumber : Json.IsNumber [] (List.replicate n '7') [] [] := by
    refine ⟨Or.inl rfl, Or.inr ⟨hdigits, ?_⟩, Or.inl rfl, Or.inl rfl⟩
    cases n <;> simp [List.replicate_succ]
  have hlong := Json.HasLong.here hnumber (by simpa using h) Json.IsBlank.nil.not_continues_nil
  simpa using hlong

theorem namedTries_eq {n : Nat} (h : Text.maxDigits < n) :
    namedTries (.start (disk n)) package = [.fault (.longNumber (some n))] :=
  (areNamed_namedTries _).fault _ _ ⟨[], _, holds n, Json.IsBlank.nil, hasLong h⟩

/-- The manifest ends the work before the index is tried. -/
theorem answer_resolve {n : Nat} (h : Text.maxDigits < n) :
    answer (workspace.resolve file "pkg".toList) (.start (disk n)) = .error (.longNumber (some n)) := by
  have hdirs : packageDirs (.start (disk n)) (searchDirs workspace.root file) = [package.parent] := rfl
  have hpackage : seenFrom package.parent "pkg".toList = package := by decide +kernel
  rw [answer_resolve_eq_first, tries, if_neg (by decide), if_neg (by decide), hdirs, List.flatMap_singleton, packageTries,
    hpackage, namedTries_eq h]
  rfl

end Numbered

end Workspace

end SassModules
