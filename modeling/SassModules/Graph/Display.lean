import SassModules.Disk

/-!
# Paths for display

A path is shown relative to a base, else relative to the workspace root, else as it is. Backslashes are shown as slashes.
Whether a path is below a directory is told by what the two resolve to. Resolving is the system's business and follows its
links, so that it is a parameter here; on a disk, which has none, it goes by the names (`Disk.resolve`).
-/

namespace SassModules

/-- What paths are shown relative to, and what paths resolve to; none for a path that no disk can hold. -/
structure Viewpoint where
  resolve : Path → Option Path
  base : Path
  root : Path

namespace Viewpoint

/-- Paths shown relative to a base, or else to the root. -/
def of (d : Disk) (root : Path) (base : Option Path) : Viewpoint :=
  ⟨fun p => (d.resolve p).toOption, base.getD root, root⟩

/-- The path below a directory, both resolved. -/
def below? (v : Viewpoint) (p dir : Path) : Option Path := do (← v.resolve p).below? (← v.resolve dir)

/-- The path as it is shown. -/
def display (v : Viewpoint) (p : Path) : Text :=
  let shown := (v.below? p v.base <|> v.below? p v.root).getD p
  shown.text.replaceChar '\\' '/'

end Viewpoint

end SassModules
