import SassModules.Declaration
import SassModules.Disk
import SassModules.Event
import SassModules.Member

/-!
# Sessions

A session is a disk, a cache of the texts that were read from it, and a log. A `Query` works in a session; when it fails,
the session keeps what happened up to the fault. A cached text is used until its path is reported as changed, whatever
the disk holds.
-/

namespace SassModules

/-- The texts read so far, by path; an entry in front hides the later ones of its path. -/
structure Cache where
  entries : List (Path × Text)

namespace Cache

/-- The cache of a new session. -/
def empty : Cache := ⟨[]⟩

/-- The text stored for a path. -/
def get? (c : Cache) (p : Path) : Option Text := (c.entries.find? (·.1 == p)).map (·.2)

/-- Forget a path. -/
def erase (c : Cache) (p : Path) : Cache := ⟨c.entries.filter (·.1 != p)⟩

/-- Store a text for a path. -/
def insert (c : Cache) (p : Path) (t : Text) : Cache := ⟨(p, t) :: (c.erase p).entries⟩

/-- Is a text stored for the path? -/
def contains (c : Cache) (p : Path) : Bool := (c.get? p).isSome

/-- The number of stored texts. -/
def size (c : Cache) : Nat := c.entries.length

end Cache

/-- A disk, what was read from it, and what happened. -/
structure Session where
  disk : Disk
  cache : Cache
  log : Array Event

/-- A session that has read nothing. -/
def Session.start (d : Disk) : Session := ⟨d, .empty, #[]⟩

/-- Work in a session that may fail. -/
abbrev Query := EStateM Fault Session

namespace Session

/-- Report an event. -/
def report (e : Event) : Query Unit := modify fun s => { s with log := s.log.push e }

/-- Report several events. -/
def reportAll (es : List Event) : Query Unit := modify fun s => { s with log := s.log ++ es.toArray }

/-- Is there a regular file at the path? -/
def isFile (p : Path) : Query Bool := return (← get).disk.isFile p

/-- Is there a directory at the path? -/
def isDir (p : Path) : Query Bool := return (← get).disk.isDir p

/-- Is there a directory at the path, if that can be told? -/
def askDir (p : Path) : Query Bool := do
  match (← get).disk.askDir p with
  | .ok found => return found
  | .error cause => throw (.read cause)

/-! ## The cache -/

/-- Look a path up in the cache. -/
def cached (p : Path) : Query (Option Text) := do
  let found := (← get).cache.get? p
  report (if found.isSome then .cacheHit p else .cacheMiss p)
  return found

/-- Store a text in the cache. -/
def store (p : Path) (t : Text) : Query Unit := do
  modify fun s => { s with cache := s.cache.insert p t }
  report (.cacheSet p)

/-- Forget a path that changed or is gone; says whether something was stored for it. -/
def invalidate (p : Path) : Query Bool := do
  let present := (← get).cache.contains p
  if present then
    modify fun s => { s with cache := s.cache.erase p }
    report (.cacheInvalidated p)
  return present

/-- Forget several paths. -/
def invalidateAll : List Path → Query Unit
  | [] => pure ()
  | p :: ps => do
    let _ ← invalidate p
    invalidateAll ps

/-- Forget everything. -/
def clear : Query Unit := do
  modify fun s => { s with cache := .empty }
  report .cacheCleared

/-- The text of a file, from the cache or else from the disk. -/
def fileText (p : Path) : Query Text := do
  match ← cached p with
  | some t => return t
  | none =>
    match (← get).disk.readText p with
    | .ok t =>
      store p t
      return t
    | .error cause =>
      if cause.isUnreadable then report (.readFailed p)
      throw (.read cause)

/-! ## Reading declarations and definitions -/

/-- The `@use` declarations of a text, reported. -/
def imports (content : Text) : Query (List Import) := do
  let found := Import.scan content
  reportAll (found.map fun i => .useFound i.path i.aliasName i.line)
  return found

/-- The `@forward` declarations of a text, reported. -/
def reexports (content : Text) : Query (List Reexport) := do
  let found := Reexport.scan content
  reportAll (found.map fun r => .forwardFound r.path r.pre r.line)
  return found

/-- The report on a mixin whose parameter list is not closed. -/
def unbalancedIn (lines : List Text) (head : Nat × Hit Mixin.Head) : List Event :=
  if (Mixin.headParameters? lines head.1 head.2).isNone then [.unbalanced head.1] else []

/-- The mixins of a text, reported. -/
def mixins (content : Text) (file : Path) : Query (List Mixin) := do
  reportAll ((Mixin.heads (Source.codeLines content)).flatMap (unbalancedIn content.lines))
  return Mixin.scan content file

/-- The definitions of a kind in a text, reported. -/
def members (kind : MemberKind) (content : Text) (file : Path) : Query (List Member) :=
  match kind with
  | .mixin => return (← mixins content file).map .mixin
  | .var => return (Variable.scan content file).map .var

/-- The first mixin of a name, reported. -/
def findMixin (content name : Text) (file : Path) : Query (Option Mixin) := do
  match Mixin.findHead? content name with
  | some head =>
    reportAll (unbalancedIn content.lines head)
    let found := Mixin.ofHeadIn content.lines file head
    report (.mixinFound name file found.line found.column)
    return some found
  | none =>
    report (.mixinAbsent name file)
    return none

/-- The first binding of a name, reported. -/
def findVariable (content name : Text) (file : Path) : Query (Option Variable) := do
  match Variable.find? content name file with
  | some found =>
    report (.variableFound name file found.line found.column)
    return some found
  | none =>
    report (.variableAbsent name file)
    return none

end Session

end SassModules
