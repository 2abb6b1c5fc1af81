import SassModules.Fault

/-!
# Disks

A disk maps routes, the names that lead from the root to a node, to nodes. A path is looked up physically: every name but
the last has to lead through an existing directory, also in front of `..`. A relative path starts at the current
directory. A name longer than 255 bytes, or one with a null character, leads nowhere. A directory may be listed without
being open to go through, so that the names in it are known and nothing can be told about what they lead to.

What a disk does not have: symbolic links, so that a path is resolved by its names alone (where links would matter, what
resolving makes of a path is a parameter, see `Viewpoint`); names that are no texts; a limit on the length of whole paths;
directories in which nothing can be created. The current directory is known by its path, which need not exist. Nothing
else changes a disk while an operation is at work on it.
-/

namespace SassModules

/-- The names that lead from the root to a node. -/
abbrev Route := List Text

/-- What stands at a route. A locked file cannot be opened. A directory can be listed or not, and can be gone through or
not. -/
inductive Node where
  | file (bytes : List UInt8)
  | lockedFile
  | directory (listable enterable : Bool)
deriving DecidableEq

namespace Node

/-- A directory that can be listed and gone through. -/
@[match_pattern] abbrev dir : Node := .directory true true

/-- A directory that can be gone through but not listed. -/
@[match_pattern] abbrev lockedDir : Node := .directory false true

/-- Is the node a regular file? -/
def isFile : Node → Bool
  | .file _ => true
  | .lockedFile => true
  | .directory _ _ => false

/-- Is the node a directory? -/
def isDir (n : Node) : Bool := !n.isFile

/-- Is the node a directory that can be gone through? -/
def isEnterable : Node → Bool
  | .directory _ enterable => enterable
  | _ => false

end Node

/-- What systems do differently with a path that they do not follow. -/
structure Platform where
  /-- A name that is too long is refused as such; elsewhere there is just nothing of that name. -/
  refusesLongNames : Bool
  /-- Asking what stands at a path that is refused is a fault; elsewhere the answer is that nothing does. -/
  faultsOnAsking : Bool
deriving DecidableEq

/-- A tree of files, the current directory, the home directories of the users, under the empty name that of the user, and
the platform. -/
structure Disk where
  entries : List (Route × Node)
  cwd : Path
  homes : List (Text × Path)
  platform : Platform

namespace Disk

/-- The node at a route. -/
def node? (d : Disk) (r : Route) : Option Node := (d.entries.find? (·.1 == r)).map (·.2)

/-- A disk that holds the root only, on a platform that faults on nothing that it is asked. -/
def empty (cwd home : Path) : Disk := ⟨[([], .dir)], cwd, [([], home)], ⟨false, false⟩⟩

/-- The home directory of a user. -/
def home? (d : Disk) (user : Text) : Option Path := d.homes.lookup user

/-- The number of regular files. -/
def fileCount (d : Disk) : Nat := (d.entries.filter (·.2.isFile)).length

/-! ## Changes -/

/-- Put a node at a route, in place of what stood there. -/
def put (d : Disk) (r : Route) (n : Node) : Disk := { d with entries := (r, n) :: d.entries.filter (·.1 != r) }

/-- The proper beginnings of a route. -/
def above (r : Route) : List Route := (List.range r.length).map r.take

/-- Put a node at a route, with the directories that lead to it. -/
def insert (d : Disk) (r : Route) (n : Node) : Disk :=
  ((above r).foldl (fun d a => if (d.node? a).isSome then d else d.put a .dir) d).put r n

/-- Remove a node with everything below it. -/
def remove (d : Disk) (r : Route) : Disk := { d with entries := d.entries.filter fun e => !r.isPrefixOf e.1 }

/-! ## Looking a path up -/

/-- Why a path leads nowhere: a name is missing or too long, the way goes through a file, or a directory on the way cannot
be gone through. -/
inductive Obstacle where
  | absent
  | throughFile
  | barred
  | overlong
deriving DecidableEq

/-- The longest name, in bytes, that a disk can hold. -/
def maxNameBytes : Nat := 255

/-- The route that names lead to from a route on. -/
def walk (d : Disk) : Route → List Text → Except Obstacle Route
  | r, [] => if (d.node? r).isSome then .ok r else .error .absent
  | r, n :: ns =>
    match d.node? r with
    | none => .error .absent
    | some node =>
      if node.isFile then .error .throughFile
      else if !node.isEnterable then .error .barred
      else if n = ['.', '.'] then walk d r.dropLast ns
      else if (Utf8.encode n).length > maxNameBytes then .error .overlong
      else walk d (r ++ [n]) ns

/-- The names of a path from the root on. -/
def namesFromRoot (d : Disk) (p : Path) : List Text := if p.isAbsolute then p.names else d.cwd.names ++ p.names

/-- The route that a path leads to. -/
def locate (d : Disk) (p : Path) : Except Obstacle Route := d.walk [] (d.namesFromRoot p)

/-- The node that a path leads to. -/
def find? (d : Disk) (p : Path) : Option Node :=
  if p.hasNull then none
  else match d.locate p with
    | .ok r => d.node? r
    | .error _ => none

/-- Is there a regular file at the path? -/
def isFile (d : Disk) (p : Path) : Bool := (d.find? p).any (·.isFile)

/-- Is there a directory at the path? -/
def isDir (d : Disk) (p : Path) : Bool := (d.find? p).any (·.isDir)

/-- The fault of opening a path that leads nowhere. -/
def faultOf (d : Disk) (p : Path) : Obstacle → ReadFault
  | .absent => .missing p
  | .throughFile => .notDirectory p
  | .barred => .denied p
  | .overlong => if d.platform.refusesLongNames then .tooLong p else .missing p

/-- The route and the node that a path leads to, or the fault of opening it. -/
def open? (d : Disk) (p : Path) : Except ReadFault (Route × Node) :=
  if p.hasNull then .error .nullCharacter
  else match d.locate p with
    | .error o => .error (d.faultOf p o)
    | .ok r => match d.node? r with
      | some n => .ok (r, n)
      | none => .error (.missing p)

/-! ## Asking -/

/-- The node that a path leads to, or none. That nothing is there is an answer, but on some platforms that the path is
refused is a fault. -/
def ask (d : Disk) (p : Path) : Except ReadFault (Option Node) :=
  if p.hasNull then .ok none
  else match d.locate p with
    | .ok r => .ok (d.node? r)
    | .error o =>
      if d.platform.faultsOnAsking && (d.faultOf p o).isForbidding then .error (d.faultOf p o) else .ok none

/-- Is there a regular file at the path, if that can be told? -/
def askFile (d : Disk) (p : Path) : Except ReadFault Bool := (d.ask p).map (·.any (·.isFile))

/-- Is there a directory at the path, if that can be told? -/
def askDir (d : Disk) (p : Path) : Except ReadFault Bool := (d.ask p).map (·.any (·.isDir))

/-! ## Reading -/

/-- The bytes of a file. -/
def readBytes (d : Disk) (p : Path) : Except ReadFault (List UInt8) := do
  match (← d.open? p).2 with
  | .file bytes => .ok bytes
  | .lockedFile => .error (.denied p)
  | .directory _ _ => .error (.isDirectory p)

/-- The text of a file, with its line ends brought to the line feed. -/
def readText (d : Disk) (p : Path) : Except ReadFault Text := do
  match Utf8.decode (← d.readBytes p) with
  | .ok t => .ok (Utf8.unifyLineEnds false t)
  | .error m => .error (.undecodable m)

/-- The name directly below a route that leads to another, when it is one name long. -/
def childName? (r s : Route) : Option Text :=
  match r.isPrefixOf? s with
  | some [n] => some n
  | _ => none

/-- The names in a directory, in order. -/
def list (d : Disk) (p : Path) : Except ReadFault (List Text) := do
  let (r, n) ← d.open? p
  match n with
  | .directory true _ =>
    .ok ((d.entries.filterMap fun e => childName? r e.1).eraseDups.mergeSort fun a b => (compare a b).isLE)
  | .directory false _ => .error (.denied p)
  | _ => .error (.notDirectory p)

/-! ## Absolute paths -/

/-- The path seen from the root. -/
def absolute (d : Disk) (p : Path) : Path := d.cwd.join p

/-- The path seen from the root with one slash in front and every `..` collapsed. -/
def canonical (d : Disk) (p : Path) : Path := (Path.mk .root (d.namesFromRoot p)).normalize

/-- The canonical path, if the path is one that a disk can hold. -/
def resolve (d : Disk) (p : Path) : Except ReadFault Path :=
  if p.hasNull then .error .nullCharacter else .ok (d.canonical p)

/-! ## Writing -/

/-- The route where a file can be written: its directory exists, and no directory or locked file stands there. -/
def writable (d : Disk) (p : Path) : Except ReadFault Route := do
  if p.hasNull then .error .nullCharacter
  else match d.locate p with
    | .ok r => match d.node? r with
      | some .lockedFile => .error (.denied p)
      | some (.file _) => .ok r
      | _ => .error (.isDirectory p)
    | .error .absent => match (d.namesFromRoot p).getLast?, d.walk [] (d.namesFromRoot p).dropLast with
      | some n, .ok r => if n = ['.', '.'] then .error (.missing p) else .ok (r ++ [n])
      | _, _ => .error (.missing p)
    | .error o => .error (d.faultOf p o)

/-- Write a text to a file; gives the route that was written. -/
def write (d : Disk) (p : Path) (t : Text) : Except ReadFault (Route × Disk) := do
  let r ← d.writable p
  .ok (r, d.put r (.file (Utf8.encode t)))

end Disk

end SassModules
