import SassModules.Manifest

/-!
# Resolving module paths

A module path names a file by an ordered list of candidates, and the first regular file among them is the module. A path
with `./` or `../` is seen from the directory of the file that holds it. Any other path is a package: it is looked for in
the `node_modules` directories from that directory up to the workspace root, and then in the include paths.
-/

namespace SassModules

/-- The root of the workspace and the directories that packages are also looked for in. -/
structure Workspace where
  root : Path
  includePaths : List Path

namespace Resolution

/-! ## Candidates -/

/-- The file with the name of a module and an ending. -/
def plainFile (base : Path) (ending : Text) : Path := base.withName (· ++ ending)

/-- The partial with the name of a module and an ending. -/
def partialFile (base : Path) (ending : Text) : Path := base.withName fun n => '_' :: n ++ ending

/-- A file directly in the directory of a module. -/
def inside (base : Path) (stem : String) (ending : Text) : Path := base.child (stem.toList ++ ending)

/-- The files that a relative module path may stand for, preferred first. -/
def relativeCandidates (base : Path) : List Path :=
  styleExtensions.map (plainFile base) ++ styleExtensions.map (inside base "_index") ++
    styleExtensions.map (inside base "index") ++ styleExtensions.map (partialFile base)

/-- The files that a package may stand for, preferred first. -/
def packageCandidates (base : Path) : List Path :=
  styleExtensions.flatMap (fun ending => [inside base "index" ending, inside base "_index" ending]) ++
    styleExtensions.map (plainFile base) ++ styleExtensions.map (partialFile base)

/-- The first regular file of a list. -/
def firstFile : List Path → Query (Option Path)
  | [] => return none
  | p :: ps => do
    if ← Session.isFile p then
      Session.report (.resolvedTo p)
      return some p
    firstFile ps

/-! ## Relative paths -/

/-- Does a module path name a file seen from the file that holds it? -/
def isRelative (modulePath : Text) : Bool := modulePath.startsWith "./" || modulePath.startsWith "../"

/-- A module path seen from a directory. -/
def seenFrom (dir : Path) (modulePath : Text) : Path := (dir.join (Path.ofText modulePath)).normalize

/-- Resolve a relative module path. -/
def resolveRelative (file : Path) (modulePath : Text) : Query (Option Path) := do
  let found ← firstFile (relativeCandidates (seenFrom file.parent modulePath))
  if found.isNone then Session.report (.relativeFailed modulePath)
  return found

/-! ## Packages -/

/-- The name of the directories that hold packages. -/
def packageDir : Text := "node_modules".toList

/-- The elements of a list up to the first that has the property, that one included. -/
def upToFirst {α : Type} (p : α → Bool) : List α → List α
  | [] => []
  | a :: as => if p a then [a] else a :: upToFirst p as

/-- The directories whose packages a file can load: its own and those above it, nearest first, up to the root. -/
def searchDirs (root file : Path) : List Path := upToFirst (· == root.normalize) file.parent.normalize.ancestors

/-- The stylesheet that the manifest of a package names, if it is a regular file. -/
def manifestEntry (package : Path) : Query (Option Path) := do
  let manifestPath := package.child Manifest.fileName
  if ← Session.isFile manifestPath then
    match ((← Manifest.read manifestPath).bind Manifest.entry?).bind Json.text? with
    | none => return none
    | some entry =>
      let path := seenFrom package entry
      if ← Session.isFile path then
        Session.report (.resolvedByManifest path)
        return some path
      return none
  return none

/-- Resolve a package in one directory of packages. -/
def resolveIn (packages : Path) (modulePath : Text) : Query (Option Path) := do
  let package := seenFrom packages modulePath
  match ← manifestEntry package with
  | some path => return some path
  | none => firstFile (packageCandidates package)

/-- Resolve a package in the package directories of the given directories. -/
def resolveUpward (modulePath : Text) : List Path → Query (Option Path)
  | [] => return none
  | dir :: dirs => do
    let packages := dir.child packageDir
    if ← Session.isDir packages then
      match ← resolveIn packages modulePath with
      | some path => return some path
      | none => resolveUpward modulePath dirs
    else resolveUpward modulePath dirs

/-- Resolve a package in the include paths. -/
def resolveIncluded (modulePath : Text) : List Path → Query (Option Path)
  | [] => do
    Session.report (.packageFailed modulePath)
    return none
  | dir :: dirs => do
    match ← firstFile (packageCandidates (seenFrom dir modulePath)) with
    | some path =>
      Session.report (.resolvedByInclude path)
      return some path
    | none => resolveIncluded modulePath dirs

end Resolution

open Resolution in
/-- The file of a module path that stands in a file; built-in modules have none. -/
def Workspace.resolve (w : Workspace) (file : Path) (modulePath : Text) : Query (Option Path) := do
  Session.report (.resolving modulePath file)
  if ModulePath.isBuiltin modulePath then
    Session.report .builtinSkipped
    return none
  if isRelative modulePath then resolveRelative file modulePath
  else
    match ← resolveUpward modulePath (searchDirs w.root file) with
    | some path => return some path
    | none => resolveIncluded modulePath w.includePaths

end SassModules
