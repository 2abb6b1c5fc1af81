import SassModules.Resolution

/-!
# Following `@forward`

A module exposes its own members and, under their prefixes, those of the modules it forwards. `Forwarding.find` follows
one member to the file that defines it, by the first declaration that fits in each file. `Forwarding.list` collects every
public member. Both keep the set of files that are being expanded: a file that is met again while it is open is a cycle
and is not expanded a second time, and every file leaves the set when its expansion ends, also by a fault.
-/

namespace SassModules

/-- The files that are being expanded. -/
abbrev OpenFiles := List Path

/-- A session and the files being expanded in it. -/
structure Walk where
  session : Session
  openFiles : OpenFiles

/-- Work that expands files. -/
abbrev Expansion := EStateM Fault Walk

namespace Walk

/-- Work in the session of a walk. -/
def lift {α : Type} (q : Query α) : Expansion α := fun w =>
  match q w.session with
  | .ok a s => .ok a { w with session := s }
  | .error e s => .error e { w with session := s }

instance : MonadLift Query Expansion := ⟨lift⟩

/-- Open a file for the time of some work; it is closed again however the work ends. -/
def expanding {α : Type} (file : Path) (work : Expansion α) : Expansion α := fun w =>
  match work { w with openFiles := file :: w.openFiles } with
  | .ok a w' => .ok a { w' with openFiles := w'.openFiles.filter (· != file) }
  | .error e w' => .error e { w' with openFiles := w'.openFiles.filter (· != file) }

/-- Is the file being expanded? -/
def isOpen (file : Path) : Expansion Bool := return (← get).openFiles.contains file

end Walk

/-- Where a forwarded member comes from: its name there and the file. -/
structure Origin where
  name : Text
  file : Path
deriving DecidableEq

namespace Forwarding

/-- Follow the first declaration whose prefix fits the member and whose module resolves. -/
def followFirst (w : Workspace) (next : Text → Text → Path → Expansion (Option Origin)) (member : Text)
    (file : Path) : List Reexport → Expansion (Option Origin)
  | [] => return none
  | d :: ds => do
    match Name.stripPrefix? d.pre member with
    | none => followFirst w next member file ds
    | some origin =>
      if let some pre := d.pre then Session.report (.prefixMatched member origin pre)
      match ← w.resolve file d.path with
      | none =>
        Session.report (.forwardFailed d.path)
        followFirst w next member file ds
      | some target =>
        Session.report (.forwardResolved target)
        let content ← Session.fileText target
        match ← next content origin target with
        | some deeper => return some deeper
        | none => return some ⟨origin, target⟩

/-- Follow a member through at most `depth` nested files. -/
def findWithin (w : Workspace) : (depth : Nat) → (content member : Text) → Path → Expansion (Option Origin)
  | 0, _, _, _ => throw .tooDeep
  | depth + 1, content, member, file => do
    if ← Walk.isOpen file then
      Session.report (.cycle file)
      return none
    Walk.expanding file do
      followFirst w (findWithin w depth) member file (← Session.reexports content)

/-- The members behind each declaration: the public ones of the file, then what that file forwards. -/
def collect (w : Workspace) (kind : MemberKind) (next : Text → Path → Expansion (List Member)) (file : Path) :
    List Reexport → Expansion (List Member)
  | [] => return []
  | d :: ds => do
    match ← w.resolve file d.path with
    | none =>
      Session.report (.forwardFailed d.path)
      collect w kind next file ds
    | some target =>
      let content ← Session.fileText target
      let own := (← Session.members kind content target).filter fun m => !Name.isPrivate m.name
      let nested ← next content target
      let rest ← collect w kind next file ds
      return (own ++ nested).map (fun m => m.rename (Name.addPrefix d.pre m.name)) ++ rest

/-- Collect the members that a file forwards, through at most `depth` nested files. -/
def listWithin (w : Workspace) (kind : MemberKind) : (depth : Nat) → (content : Text) → Path →
    Expansion (List Member)
  | 0, _, _ => throw .tooDeep
  | depth + 1, content, file => do
    if ← Walk.isOpen file then
      Session.report (.listingCycle file)
      return []
    Walk.expanding file do
      collect w kind (listWithin w kind depth) file (← Session.reexports content)

/-- How many files may be open at once. Each file has two absolute spellings, so a walk from an absolute path stays within
twice the number of files and two; a relative path has more spellings, for which there is an allowance. -/
def depthLimit (d : Disk) : Nat := 2 * d.fileCount + 1000

/-- Follow a member of a file. -/
def find (w : Workspace) (content member : Text) (file : Path) : Expansion (Option Origin) := do
  findWithin w (depthLimit (← get).session.disk) content member file

/-- Collect the members that a file forwards. -/
def list (w : Workspace) (kind : MemberKind) (content : Text) (file : Path) : Expansion (List Member) := do
  listWithin w kind (depthLimit (← get).session.disk) content file

/-- Run an expansion with no file open. -/
def fresh {α : Type} (x : Expansion α) : Query α := fun s =>
  match x ⟨s, []⟩ with
  | .ok a w => .ok a w.session
  | .error e w => .error e w.session

end Forwarding

end SassModules
