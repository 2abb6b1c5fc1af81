import SassModules.Proofs.Chain
import SassModules.Proofs.Lookup
import SassModules.Proofs.Restoring

/-!
# Spellings of a module path

A file in the directory of another can be named `./stem`, and a partial also `./_stem`, so that both bind the alias
`stem` by default. Where the file is the only stylesheet of its stem, each of these leads to it; for `./stem` and a
partial the directory `stem` must not hold an index, which is preferred (`Workspace.resolve_spellings`). A spelling with
the ending written out binds the same alias and never leads to the file, because each candidate adds an ending of its
own or a name below.
-/

namespace SassModules

/-! ## Seen from a directory -/

namespace Path

theorem withName_child (p : Path) (n : Text) (f : Text → Text) : (p.child n).withName f = p.child (f n) := by
  simp [withName, child, parent, name]

/-- A name that does not go up stays behind what is collapsed. -/
theorem normalize_child (p : Path) {n : Text} (hn : n ≠ ['.', '.']) : (p.child n).normalize = p.normalize.child n := by
  simp [normalize, child, List.foldl_append, collapseStep, hn]

theorem splitOn_here {n : Text} (hn : '/' ∉ n) : List.splitOn '/' ('.' :: '/' :: n) = [['.'], n] := by
  have hnames : ∀ m ∈ [['.'], n], '/' ∉ m := by
    simp only [List.forall_mem_cons]
    exact ⟨by decide, hn, nofun⟩
  simpa using List.splitOn_intercalate '/' hnames (List.cons_ne_nil _ _)

/-- A file name behind `./` is read as one name. -/
theorem ofText_here {n : Text} (hn : IsFileName n) : ofText ('.' :: '/' :: n) = ⟨.relative, [n]⟩ := by
  have hsplit := splitOn_here hn.2.1
  have hne := hn.1
  simp only [List.mem_cons, not_or] at hne
  simp [ofText, hsplit, anchorOf, hne]

end Path

namespace Resolution

/-- A file name behind `./` is seen as a name in the directory. -/
theorem seenFrom_here (dir : Path) {n : Text} (hn : Path.IsFileName n) :
    seenFrom dir ('.' :: '/' :: n) = dir.normalize.child n := by
  have hdots : n ≠ ['.', '.'] := fun h => hn.1 (by simp [h])
  rw [seenFrom, Path.ofText_here hn]
  exact Path.normalize_child dir hdots

/-- The files in a directory that a name may stand for. -/
theorem relativeCandidates_child (dir : Path) (n : Text) : relativeCandidates (dir.child n) =
    styleExtensions.map (fun e => dir.child (n ++ e)) ++
      (styleExtensions.map (inside (dir.child n) "_index") ++ styleExtensions.map (inside (dir.child n) "index") ++
        styleExtensions.map fun e => dir.child ('_' :: n ++ e)) := by
  have hplain : plainFile (dir.child n) = fun e => dir.child (n ++ e) := funext fun e => Path.withName_child _ _ _
  have hpartial : partialFile (dir.child n) = fun e => dir.child ('_' :: n ++ e) :=
    funext fun e => Path.withName_child _ _ _
  simp only [relativeCandidates, hplain, hpartial, List.append_assoc]

end Resolution

/-! ## The default alias -/

namespace ModulePath

variable {stem n ending : Text}

theorem dropBeginning_eq_self {w : String} {t : Text} (h : ¬ w.toList <+: t) : dropBeginning w t = t := by
  have hnone : w.toList.isPrefixOf? t = none := by
    rw [← Option.not_isSome_iff_eq_none, List.isSome_isPrefixOf?_eq_isPrefixOf, List.isPrefixOf_iff_prefix]
    exact h
  rw [dropBeginning, hnone, Option.getD_none]

/-- The ending that a name is written with comes off. -/
theorem dropEnding?_append (n ending : Text) : dropEnding? ending (n ++ ending) = some n := by
  have hends : Text.endsWith (n ++ ending) ending = true := List.isSuffixOf_iff_suffix.2 (List.suffix_append _ _)
  rw [dropEnding?, if_pos hends, List.length_append, Nat.add_sub_cancel, List.take_left]

theorem dropEnding?_eq_none {t : Text} (h : ¬ ending <:+ t) : dropEnding? ending t = none := by
  rw [dropEnding?, if_neg]
  rwa [Text.endsWith, List.isSuffixOf_iff_suffix]

/-- The endings come off the name that they were put on, whichever it is. -/
theorem stem_append (hdot : '.' ∉ n) {written : Text} (hwritten : written = [] ∨ written ∈ styleExtensions) :
    (styleExtensions.findSome? (dropEnding? · (n ++ written))).getD (n ++ written) = n := by
  have hdots : ∀ e ∈ styleExtensions, '.' ∈ e := by decide
  have hnot : ∀ e ∈ styleExtensions, ¬ e <:+ n := fun e he hsuffix => hdot (hsuffix.subset (hdots e he))
  rcases hwritten with rfl | hwritten
  · rw [List.append_nil, List.findSome?_eq_none_iff.2, Option.getD_none]
    exact fun e he => dropEnding?_eq_none (hnot e he)
  · simp only [styleExtensions, List.mem_cons, List.not_mem_nil, or_false] at hwritten
    rcases hwritten with rfl | rfl
    · rw [styleExtensions, List.findSome?_cons, dropEnding?_append, Option.getD_some]
    · have hother : ¬ ".scss".toList <:+ n ++ ".sass".toList := by
        intro h
        have hle := List.suffix_of_suffix_length_le h (List.suffix_append n ".sass".toList) (by decide)
        revert hle
        decide
      rw [styleExtensions, List.findSome?_cons, dropEnding?_eq_none hother, List.findSome?_cons, dropEnding?_append,
        Option.getD_some]

/-- The names that a module can be called by: its stem, without and with the mark of a partial. -/
def names (stem : Text) : List Text := [stem, '_' :: stem]

theorem isName_of_mem_names (h : n ∈ names stem) (hstem : Reference.isName stem = true) :
    Reference.isName n = true := by
  simp only [names, List.mem_cons, List.not_mem_nil, or_false] at h
  rcases h with rfl | rfl
  · exact hstem
  · refine Pattern.isName_iff.2 ⟨List.cons_ne_nil _ _, List.forall_mem_cons.2 ⟨by decide, ?_⟩⟩
    exact (Pattern.isName_iff.1 hstem).2

/-- A spelling holds name characters and those of an ending. -/
theorem not_mem_append (hn : Reference.isName n = true) {written : Text}
    (hwritten : written = [] ∨ written ∈ styleExtensions) {c : Char} (hc : Text.isNameChar c = false)
    (hendings : ∀ e ∈ styleExtensions, c ∉ e) : c ∉ n ++ written := by
  rw [List.mem_append, not_or]
  refine ⟨Pattern.not_mem_of_isName hn hc, ?_⟩
  rcases hwritten with rfl | hwritten
  · exact List.not_mem_nil
  · exact hendings _ hwritten

/-- The default alias of a spelling is the stem, whatever marks it is written with. -/
theorem defaultAlias_here (hstem : Reference.isName stem = true) (hpublic : stem.head? ≠ some '_')
    (hn : n ∈ names stem) {written : Text} (hwritten : written = [] ∨ written ∈ styleExtensions) :
    defaultAlias ('.' :: '/' :: (n ++ written)) = stem := by
  have hname := isName_of_mem_names hn hstem
  have hslash : '/' ∉ n ++ written := not_mem_append hname hwritten (by decide) (by decide)
  have hcolon : ':' ∉ n ++ written := not_mem_append hname hwritten (by decide) (by decide)
  have hdot : '.' ∉ n := Pattern.not_mem_of_isName hname (by decide)
  have hbuiltin : ¬ "sass:".toList <+: n ++ written := fun h => hcolon (h.subset (by decide))
  have hlast : (List.splitOn '/' ('.' :: '/' :: (n ++ written))).getLast?.getD [] = n ++ written := by
    rw [Path.splitOn_here hslash]
    rfl
  rw [defaultAlias]
  simp only [hlast, dropBeginning_eq_self hbuiltin, stem_append hdot hwritten]
  simp only [names, List.mem_cons, List.not_mem_nil, or_false] at hn
  rcases hn with rfl | rfl
  · refine dropBeginning_eq_self fun h => hpublic ?_
    obtain ⟨rest, rfl⟩ := h
    rfl
  · rfl

end ModulePath

/-! ## Resolving a spelling -/

/-- The path is a regular file, and no other stylesheet of the directory has its stem, with or without the mark of a
partial. -/
structure Disk.IsOnlyStylesheet (d : Disk) (dir : Path) (stem : Text) (found : Path) : Prop where
  isFile : d.isFile found = true
  only : ∀ n ∈ ModulePath.names stem, ∀ e ∈ styleExtensions, d.isFile (dir.child (n ++ e)) = true →
    dir.child (n ++ e) = found

instance (d : Disk) (dir : Path) (stem : Text) (found : Path) : Decidable (d.IsOnlyStylesheet dir stem found) :=
  decidable_of_iff (d.isFile found = true ∧ ∀ n ∈ ModulePath.names stem, ∀ e ∈ styleExtensions,
      d.isFile (dir.child (n ++ e)) = true → dir.child (n ++ e) = found)
    ⟨fun ⟨h₁, h₂⟩ => ⟨h₁, h₂⟩, fun ⟨h₁, h₂⟩ => ⟨h₁, h₂⟩⟩

/-- The directory holds no index. -/
def Disk.HasNoIndex (d : Disk) (dir : Path) : Prop :=
  ∀ n ∈ ["_index", "index"], ∀ e ∈ styleExtensions, d.isFile (Resolution.inside dir n e) = false

instance (d : Disk) (dir : Path) : Decidable (d.HasNoIndex dir) :=
  inferInstanceAs (Decidable (∀ n ∈ ["_index", "index"], ∀ e ∈ styleExtensions,
    d.isFile (Resolution.inside dir n e) = false))

namespace Workspace

open Resolution ModulePath

variable {w : Workspace} {s : Session} {dir file found : Path} {stem n ending : Text}

/-- A file name behind `./` leads to the first of its candidates in the directory. -/
theorem answer_resolve_here (hfile : file.parent.normalize = dir) (hn : Path.IsFileName n) :
    answer (w.resolve file ('.' :: '/' :: n)) s = .ok ((relativeCandidates (dir.child n)).find? s.disk.isFile) := by
  rw [answer_resolve_eq_first, tries, if_neg (by simp [isBuiltin, Text.startsWith]),
    if_pos (by simp [isRelative, Text.startsWith]), seenFrom_here _ hn, hfile, Try.first_map_file]

theorem isFileName_spelling (hn : Reference.isName n = true) {written : Text}
    (hwritten : written = [] ∨ written ∈ styleExtensions) : Path.IsFileName (n ++ written) := by
  refine ⟨?_, not_mem_append hn hwritten (by decide) (by decide), not_mem_append hn hwritten (by decide) (by decide)⟩
  obtain ⟨hne, hchars⟩ := Pattern.isName_iff.1 hn
  obtain ⟨c, n, rfl⟩ := List.exists_cons_of_ne_nil hne
  have hc : c ≠ '.' := fun h => absurd (hchars c List.mem_cons_self) (by rw [h]; decide)
  simp [hc]

/-- A name leads to the file that is the only one with the name and an ending. -/
theorem resolve_plain (hfile : file.parent.normalize = dir) (hn : Reference.isName n = true)
    (hending : ending ∈ styleExtensions) (hfound : s.disk.isFile (dir.child (n ++ ending)) = true)
    (honly : ∀ e ∈ styleExtensions, s.disk.isFile (dir.child (n ++ e)) = true →
      dir.child (n ++ e) = dir.child (n ++ ending)) :
    answer (w.resolve file ('.' :: '/' :: n)) s = .ok (some (dir.child (n ++ ending))) := by
  have hname := isFileName_spelling hn (Or.inl rfl)
  rw [List.append_nil] at hname
  rw [answer_resolve_here hfile hname, relativeCandidates_child, List.find?_append,
    find?_eq_of_only (List.mem_map_of_mem hending) hfound, Option.some_or]
  intro p hp hisFile
  obtain ⟨e, he, rfl⟩ := List.mem_map.1 hp
  exact honly e he hisFile

/-- The stem leads to the partial that is the only stylesheet with it, where no index is preferred. -/
theorem resolve_partial (hfile : file.parent.normalize = dir) (hstem : Reference.isName stem = true)
    (hending : ending ∈ styleExtensions) (hindex : s.disk.HasNoIndex (dir.child stem))
    (honly : s.disk.IsOnlyStylesheet dir stem (dir.child ('_' :: stem ++ ending))) :
    answer (w.resolve file ('.' :: '/' :: stem)) s = .ok (some (dir.child ('_' :: stem ++ ending))) := by
  have hname := isFileName_spelling hstem (Or.inl rfl)
  rw [List.append_nil] at hname
  rw [answer_resolve_here hfile hname, relativeCandidates_child, find?_eq_of_only _ honly.isFile]
  · intro p hp hisFile
    simp only [List.mem_append, List.mem_map] at hp
    rcases hp with ⟨e, he, rfl⟩ | (⟨e, he, rfl⟩ | ⟨e, he, rfl⟩) | ⟨e, he, rfl⟩
    · exact honly.only stem (by simp [names]) e he hisFile
    · exact absurd hisFile (by simp [hindex "_index" (by simp) e he])
    · exact absurd hisFile (by simp [hindex "index" (by simp) e he])
    · exact honly.only ('_' :: stem) (by simp [names]) e he hisFile
  · simp only [List.mem_append]
    exact Or.inr (Or.inr (List.mem_map_of_mem hending))

/-- No candidate for a file name is the file of that name: it has one more ending, or lies below. -/
theorem ne_of_mem_relativeCandidates {p : Path} (hp : p ∈ relativeCandidates (dir.child n)) : p ≠ dir.child n := by
  have hendings : ∀ e ∈ styleExtensions, 0 < e.length := by decide
  rintro rfl
  rw [relativeCandidates_child] at hp
  simp only [List.mem_append, List.mem_map] at hp
  rcases hp with ⟨e, he, heq⟩ | (⟨e, he, heq⟩ | ⟨e, he, heq⟩) | ⟨e, he, heq⟩
  · have hname : n ++ e = n := by simpa [Path.child] using heq
    have hlen := congrArg List.length hname
    rw [List.length_append] at hlen
    exact absurd (hendings e he) (by omega)
  · exact absurd (congrArg (fun p => p.names.length) heq) (by simp [inside, Path.child])
  · exact absurd (congrArg (fun p => p.names.length) heq) (by simp [inside, Path.child])
  · have hname : '_' :: n ++ e = n := by simpa [Path.child] using heq
    have hlen := congrArg List.length hname
    rw [List.length_append, List.length_cons] at hlen
    omega

/-- **The spellings of a module path.** Whatever marks a spelling is written with, its default alias is the stem. The
stem leads to the plain file that is the only stylesheet with it. A partial is reached by its own name, and by the stem
where the directory of that name has no index. With the ending written out, neither file is reached. -/
theorem resolve_spellings (w : Workspace) (s : Session) (dir file : Path) (stem ending : Text)
    (hfile : file.parent.normalize = dir) (hstem : Reference.isName stem = true) (hpublic : stem.head? ≠ some '_')
    (hending : ending ∈ styleExtensions) :
    (∀ n ∈ names stem, ∀ written ∈ [[], ending], defaultAlias ('.' :: '/' :: (n ++ written)) = stem) ∧
      (s.disk.IsOnlyStylesheet dir stem (dir.child (stem ++ ending)) →
        answer (w.resolve file ('.' :: '/' :: stem)) s = .ok (some (dir.child (stem ++ ending)))) ∧
      (s.disk.IsOnlyStylesheet dir stem (dir.child ('_' :: stem ++ ending)) →
        answer (w.resolve file ('.' :: '/' :: '_' :: stem)) s = .ok (some (dir.child ('_' :: stem ++ ending))) ∧
        (s.disk.HasNoIndex (dir.child stem) →
          answer (w.resolve file ('.' :: '/' :: stem)) s = .ok (some (dir.child ('_' :: stem ++ ending))))) ∧
      ∀ n ∈ names stem,
        answer (w.resolve file ('.' :: '/' :: (n ++ ending))) s ≠ .ok (some (dir.child (n ++ ending))) := by
  have hplain : stem ∈ names stem := by simp [names]
  have hpartial : '_' :: stem ∈ names stem := by simp [names]
  refine ⟨fun n hn written hwritten => ?_, fun honly => ?_, fun honly => ⟨?_, fun hindex => ?_⟩, fun n hn h => ?_⟩
  · simp only [List.mem_cons, List.not_mem_nil, or_false] at hwritten
    exact defaultAlias_here hstem hpublic hn (hwritten.imp_right fun (h : written = ending) => h ▸ hending)
  · exact resolve_plain hfile hstem hending honly.isFile (honly.only stem hplain)
  · exact resolve_plain hfile (isName_of_mem_names hpartial hstem) hending honly.isFile (honly.only _ hpartial)
  · exact resolve_partial hfile hstem hending hindex honly
  · have hname := isFileName_spelling (isName_of_mem_names hn hstem) (Or.inr hending)
    rw [answer_resolve_here hfile hname] at h
    exact ne_of_mem_relativeCandidates (List.mem_of_find?_eq_some (Except.ok.inj h)) rfl

end Workspace

namespace Spelling

def fileMain : Path := ⟨.root, ["main.scss".toList]⟩

def filePartial : Path := ⟨.root, ["_b.sass".toList]⟩

def fileIndex : Path := ⟨.root, ["b".toList, "_index.scss".toList]⟩

/-- A disk with two files in one directory, one of them a partial. -/
def disk : Disk :=
  ((Disk.empty ⟨.root, []⟩ ⟨.root, []⟩).insert fileMain.names (.file [])).insert filePartial.names (.file [])

/-- The same disk with an index in the directory that is named like the partial. -/
def diskWithIndex : Disk := disk.insert fileIndex.names (.file [])

end Spelling

namespace Workspace

/-- Without the index, the file `/main.scss` is reached by its stem, and the partial by both of its names. -/
theorem resolve_spellings_sample :
    Spelling.disk.IsOnlyStylesheet ⟨.root, []⟩ "main".toList Spelling.fileMain ∧
      answer (Ring.workspace.resolve Spelling.fileMain "./main".toList) (.start Spelling.disk) =
        .ok (some Spelling.fileMain) ∧
      Spelling.disk.IsOnlyStylesheet ⟨.root, []⟩ "b".toList Spelling.filePartial ∧
      Spelling.disk.HasNoIndex ⟨.root, ["b".toList]⟩ ∧
      answer (Ring.workspace.resolve Spelling.fileMain "./_b".toList) (.start Spelling.disk) =
        .ok (some Spelling.filePartial) ∧
      answer (Ring.workspace.resolve Spelling.fileMain "./b".toList) (.start Spelling.disk) =
        .ok (some Spelling.filePartial) := by
  have hmain : Spelling.disk.IsOnlyStylesheet ⟨.root, []⟩ "main".toList Spelling.fileMain := by decide +kernel
  have hpartial : Spelling.disk.IsOnlyStylesheet ⟨.root, []⟩ "b".toList Spelling.filePartial := by decide +kernel
  have hindex : Spelling.disk.HasNoIndex ⟨.root, ["b".toList]⟩ := by decide +kernel
  have spelt := fun (stem ending : Text) => resolve_spellings Ring.workspace (.start Spelling.disk) ⟨.root, []⟩
    Spelling.fileMain stem ending (by decide)
  have hplain := (spelt "main".toList ".scss".toList (by decide +kernel) (by decide) (by decide)).2.1 hmain
  have hspelt := (spelt "b".toList ".sass".toList (by decide +kernel) (by decide) (by decide)).2.2.1 hpartial
  exact ⟨hmain, hplain, hpartial, hindex, hspelt.1, hspelt.2 hindex⟩

/-- A partial that is the only stylesheet of its stem is not reached with its ending written out, though that spelling
binds the same alias, and the stem alone leads to the index of the directory beside it. -/
theorem resolve_misses_partial :
    Spelling.diskWithIndex.IsOnlyStylesheet ⟨.root, []⟩ "b".toList Spelling.filePartial ∧
      ModulePath.defaultAlias "./_b.sass".toList = "b".toList ∧
      answer (Ring.workspace.resolve Spelling.fileMain "./_b.sass".toList) (.start Spelling.diskWithIndex) = .ok none ∧
      ModulePath.defaultAlias "./b".toList = "b".toList ∧
      answer (Ring.workspace.resolve Spelling.fileMain "./b".toList) (.start Spelling.diskWithIndex) =
        .ok (some Spelling.fileIndex) := by
  decide +kernel

end Workspace

end SassModules
