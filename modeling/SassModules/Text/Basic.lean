/-!
# Texts

A text is a list of characters, so that a position is the number of characters before it and a proof about a text is an
induction on a list. Lines end at the line feed only.
-/

namespace SassModules

/-- A text, character by character. -/
abbrev Text := List Char

namespace Text

/-- The same text as a string, for messages. -/
abbrev str (t : Text) : String := String.ofList t

/-- The lines of a text; a text without a line feed is one line. -/
def lines (t : Text) : List Text := t.splitOn '\n'

/-- Texts joined with a separator between them. -/
def join (sep : String) (ts : List Text) : Text := sep.toList.intercalate ts

/-- Does the text begin with these characters? -/
def startsWith (t : Text) (w : String) : Bool := w.toList.isPrefixOf t

/-- Does the text end with these characters? -/
def endsWith (t : Text) (w : Text) : Bool := w.isSuffixOf t

/-- Do the given characters occur somewhere in the text? -/
def occurs (w : String) : Text → Bool
  | [] => w.toList.isEmpty
  | c :: t => w.toList.isPrefixOf (c :: t) || occurs w t

/-- What follows the first occurrence of the given characters, if there is one. -/
def after? (w : String) : Text → Option Text
  | [] => w.toList.isPrefixOf? []
  | c :: t => w.toList.isPrefixOf? (c :: t) <|> after? w t

/-- The text without the characters of a class at its end. -/
def dropEndWhile (p : Char → Bool) (t : Text) : Text := (t.reverse.dropWhile p).reverse

/-- The text filled up with blanks to a width. -/
def padTo (width : Nat) (t : Text) : Text := t ++ List.replicate (width - t.length) ' '

/-- Every occurrence of one character replaced by another. -/
def replaceChar (old new : Char) (t : Text) : Text := t.map fun c => if c = old then new else c

/-- The text up to a position, where a negative position counts from the end. -/
def upTo (t : Text) (stop : Int) : Text :=
  if 0 ≤ stop then t.take stop.toNat else t.take ((t.length : Int) + stop).toNat

end Text

end SassModules
