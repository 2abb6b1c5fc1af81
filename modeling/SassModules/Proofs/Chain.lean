import SassModules.Proofs.Expansion
import SassModules.Proofs.Prefixes

/-!
# Forward chains

A chain is a sequence of `@forward` declarations, each standing in the file that the one before leads to. `IsChain` says
which sequences are chains of a text in a file, `IsSimple` that no file is opened on the way which is open already, and
`exposed` what a chain makes visible at its start: the public definitions of its last file, under the prefixes of the
chain, the last one put on first. `Ring` is the smallest disk on which a chain comes back to a file that is open.
-/

namespace SassModules

open Forwarding

/-- A declaration as a step of a chain: its place among the declarations of its file, and the file it leads to. -/
structure Hop where
  position : Nat
  decl : Reexport
  target : Path
deriving DecidableEq

namespace Hop

/-- The files that the hops of a chain start from. -/
def sources : Path → List Hop → List Path
  | _, [] => []
  | file, h :: hs => file :: sources h.target hs

/-- The file that a chain leads to. -/
def endFile : Path → List Hop → Path
  | file, [] => file
  | _, h :: hs => endFile h.target hs

theorem endFile_cons (file : Path) (h : Hop) (hs : List Hop) : endFile file (h :: hs) = endFile h.target hs := rfl

/-- A name at the end of a chain, as it reads at the start: the last prefix is put on first. -/
def addPrefixes (hs : List Hop) (n : Text) : Text := hs.foldr (fun h n => Name.addPrefix h.decl.pre n) n

@[simp] theorem addPrefixes_nil (n : Text) : addPrefixes [] n = n := rfl

@[simp] theorem addPrefixes_cons (h : Hop) (hs : List Hop) (n : Text) :
    addPrefixes (h :: hs) n = Name.addPrefix h.decl.pre (addPrefixes hs n) := rfl

end Hop

open Hop

/-! ## Chains of a file -/

section Chains

variable (w : Workspace) (s : Session)

/-- The hop is a declaration of the text, and its module resolves to its target. -/
structure IsHop (content : Text) (file : Path) (h : Hop) : Prop where
  scanned : (Reexport.scan content)[h.position]? = some h.decl
  resolved : w.target? s file h.decl.path = some h.target

/-- Every hop is one of the text that the hop before leads to; the first is one of the given text. -/
inductive IsChain : Text → Path → List Hop → Prop
  | nil (content : Text) (file : Path) : IsChain content file []
  | cons {content text : Text} {file : Path} {h : Hop} {hs : List Hop} : IsHop w s content file h →
      s.reads h.target = .ok text → IsChain text h.target hs → IsChain content file (h :: hs)

/-- The files that the hops start from are pairwise different, and none is open already. -/
structure IsSimple (V : OpenFiles) (file : Path) (hs : List Hop) : Prop where
  nodup : (sources file hs).Nodup
  fresh : ∀ f ∈ sources file hs, f ∉ V

variable {w s}

theorem isSimple_nil (V : OpenFiles) (file : Path) : IsSimple V file [] := ⟨List.nodup_nil, fun _ h => by cases h⟩

/-- A chain is simple when its first file is not open and the rest is simple with that file open. -/
theorem isSimple_cons_iff {V : OpenFiles} {file : Path} {h : Hop} {hs : List Hop} :
    IsSimple V file (h :: hs) ↔ file ∉ V ∧ IsSimple (file :: V) h.target hs := by
  constructor
  · rintro ⟨hnodup, hfresh⟩
    obtain ⟨hfile, hnodup⟩ := List.nodup_cons.1 hnodup
    refine ⟨hfresh file List.mem_cons_self, hnodup, fun f hf hV => ?_⟩
    rcases List.mem_cons.1 hV with rfl | hV
    · exact hfile hf
    · exact hfresh f (List.mem_cons_of_mem _ hf) hV
  · rintro ⟨hfile, hnodup, hfresh⟩
    refine ⟨List.nodup_cons.2 ⟨fun hf => hfresh file hf List.mem_cons_self, hnodup⟩, fun f hf => ?_⟩
    rcases List.mem_cons.1 hf with rfl | hf
    · exact hfile
    · exact fun hV => hfresh f hf (List.mem_cons_of_mem _ hV)

theorem isChain_cons_iff {content : Text} {file : Path} {h : Hop} {hs : List Hop} : IsChain w s content file (h :: hs) ↔
    IsHop w s content file h ∧ ∃ text, s.reads h.target = .ok text ∧ IsChain w s text h.target hs := by
  constructor
  · rintro (_ | ⟨hop, hread, hrest⟩)
    exact ⟨hop, _, hread, hrest⟩
  · rintro ⟨hop, text, hread, hrest⟩
    exact .cons hop hread hrest

end Chains

/-! ## What a chain makes visible -/

namespace Member

@[simp] theorem name_rename (n : Text) (m : Member) : (m.rename n).name = n := by cases m <;> rfl

@[simp] theorem rename_rename (n o : Text) (m : Member) : (m.rename o).rename n = m.rename n := by cases m <;> rfl

@[simp] theorem rename_name (m : Member) : m.rename m.name = m := by cases m <;> rfl

end Member

/-- The public definitions in the last file of a chain, named as at its start. -/
def exposed (s : Session) (kind : MemberKind) (file : Path) (hs : List Hop) : List Member :=
  match s.reads (endFile file hs) with
  | .ok text => (publicIn kind text (endFile file hs)).map fun m => m.rename (addPrefixes hs m.name)
  | .error _ => []

section Exposed

variable {s : Session} {kind : MemberKind} {file : Path}

theorem exposed_nil {text : Text} (h : s.reads file = .ok text) : exposed s kind file [] = publicIn kind text file := by
  simp only [exposed, endFile, h, addPrefixes_nil, Member.rename_name, List.map_id_fun', id]

/-- One more hop in front puts its prefix in front of everything. -/
theorem exposed_cons (h : Hop) (hs : List Hop) :
    exposed s kind file (h :: hs) = renamedBy h.decl (exposed s kind h.target hs) := by
  simp only [exposed, endFile_cons, renamedBy]
  cases s.reads (endFile h.target hs) with
  | error e => rfl
  | ok text =>
    simp only [List.map_map]
    refine List.map_congr_left fun m _ => ?_
    simp

/-- A definition is visible at the start of a chain under the prefixes of the chain, unless it is private. -/
theorem mem_exposed {hs : List Hop} {text : Text} {r : Member} (h : s.reads (endFile file hs) = .ok text) :
    r ∈ exposed s kind file hs ↔ ∃ m ∈ Member.scan kind text (endFile file hs), Name.isPrivate m.name = false ∧
      m.rename (addPrefixes hs m.name) = r := by
  simp only [exposed, h, publicIn, List.mem_map, List.mem_filter, Bool.not_eq_true', and_assoc]

end Exposed

/-! ## Two files that forward each other -/

namespace Ring

/-- The text of the file `/a.scss`. -/
def textA : Text := "@forward \"./b\" as b-*;\n$gap: 1px;".toList

/-- The text of the file `/b.scss`. -/
def textB : Text := "@forward \"./a\" as a-*;\n$tone: red;\n$_own: 0;".toList

def fileA : Path := ⟨.root, ["a.scss".toList]⟩

def fileB : Path := ⟨.root, ["b.scss".toList]⟩

/-- A disk with the two files. -/
def disk : Disk :=
  ((Disk.empty ⟨.root, []⟩ ⟨.root, []⟩).insert fileA.names (.file (Utf8.encode textA))).insert fileB.names
    (.file (Utf8.encode textB))

def workspace : Workspace := ⟨⟨.root, []⟩, []⟩

end Ring

end SassModules
