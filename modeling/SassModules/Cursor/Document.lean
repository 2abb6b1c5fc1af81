import SassModules.Path

/-!
# Documents

A document is the text of an open file with the workspace that it belongs to, if any. Positions count lines and characters
from zero; they come from outside, so they may lie anywhere.
-/

namespace SassModules

/-- A position of a cursor. -/
structure Position where
  line : Int
  character : Int
deriving DecidableEq

/-- A stretch of text between two positions. -/
structure Span where
  start : Position
  stop : Position
deriving DecidableEq

/-- The place of a definition. -/
structure Location where
  file : Path
  line : Int
  column : Int
deriving DecidableEq

/-- An open file. -/
structure Document where
  file : Path
  text : Text
  root : Option Path

namespace Document

/-- A line without carriage returns at its end, empty outside the text. -/
def lineAt (d : Document) (line : Int) : Text :=
  if 0 ≤ line then ((d.text.lines[line.toNat]?).getD []).dropEndWhile (· == '\r') else []

/-- The part of a line before a position; a negative character counts from the end of the line. -/
def textBefore (d : Document) (p : Position) : Text := (d.lineAt p.line).upTo p.character

end Document

end SassModules
