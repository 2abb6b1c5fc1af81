import SassModules.Yaml.Place

/-!
# YAML tokens

A text is cut into tokens. Indentation becomes tokens of its own: a block collection starts where a deeper column is
reached and ends where the text returns to a lesser one. That a scalar is the key of a mapping shows only at the colon
behind it, so the place of every token that may be a key is kept until then. Anchors, tags, directives and block scalars
are not part of the settings format and are refused.
-/

namespace SassModules.Yaml

/-- A token. A plain scalar may stand for more than a text. -/
inductive Token where
  | documentStart
  | documentEnd
  | sequenceStart
  | mappingStart
  | blockEnd
  | flowSequenceStart
  | flowSequenceEnd
  | flowMappingStart
  | flowMappingEnd
  | entry
  | comma
  | key
  | value
  | scalar (t : Text) (isPlain : Bool)
deriving DecidableEq

/-- A token that may turn out to be a key: how many tokens stand before it, where it begins, and whether a colon has to
follow. -/
structure KeyMark where
  number : Nat
  required : Bool
  index : Nat
  line : Nat
  column : Nat

/-- A text that is partly cut into tokens. `keys` has an entry for the block level and one for each open flow
collection, the innermost first. -/
structure Lexer where
  place : Place
  indent : Int
  outer : List Int
  keyAllowed : Bool
  keys : List (Option KeyMark)
  tokens : List Token

namespace Lexer

/-- Is a flow collection open? -/
def inFlow (l : Lexer) : Bool := 1 < l.keys.length

/-- Add a token. -/
def push (l : Lexer) (t : Token) : Lexer := { l with tokens := l.tokens ++ [t] }

/-- Go on by some characters. -/
def advance (l : Lexer) (n : Nat) : Lexer := { l with place := l.place.advance n }

/-- Forbid or allow a key at the next place. -/
def allowKey (l : Lexer) (b : Bool) : Lexer := { l with keyAllowed := b }

/-! ## Keys -/

/-- Give up the mark of the innermost level; a required key must not be given up. -/
def dropKey (l : Lexer) : Option Lexer :=
  match l.keys with
  | some k :: ks => if k.required then none else some { l with keys := none :: ks }
  | _ => some l

/-- Mark the next token as a possible key, where one is allowed. -/
def markKey (l : Lexer) : Option Lexer :=
  if l.keyAllowed then do
    let l ← l.dropKey
    let mark : KeyMark := ⟨l.tokens.length, !l.inFlow && l.indent == l.place.column, l.place.index, l.place.line,
      l.place.column⟩
    some { l with keys := some mark :: l.keys.drop 1 }
  else some l

/-- How far behind its start the colon of a key may stand. -/
def maxKeyLength : Nat := 1024

/-- Can a key still get its colon on this line? -/
def isStale (l : Lexer) (k : KeyMark) : Bool := k.line != l.place.line || maxKeyLength < l.place.index - k.index

/-- Give up the keys that can no longer get their colon. -/
def dropStaleKeys (l : Lexer) : Option Lexer :=
  if l.keys.any fun k => k.any fun k => l.isStale k && k.required then none
  else some { l with keys := l.keys.map fun k => k.filter fun k => !l.isStale k }

/-! ## Indentation -/

/-- Close the block collections that are deeper than a column. -/
def closeTo (column : Int) : List Int → Int → List Token → Int × List Int × List Token
  | [], indent, tokens => (indent, [], tokens)
  | o :: os, indent, tokens =>
    if column < indent then closeTo column os o (tokens ++ [.blockEnd]) else (indent, o :: os, tokens)

/-- Close the block collections that the column has left. -/
def unwind (l : Lexer) (column : Int) : Lexer :=
  if l.inFlow then l
  else
    let (indent, outer, tokens) := closeTo column l.outer l.indent l.tokens
    { l with indent := indent, outer := outer, tokens := tokens }

/-- Start a block collection at a column if it is deeper, with its token in front of the token of a number. -/
def openAt (l : Lexer) (column number : Nat) (t : Token) : Lexer :=
  if l.indent < column then
    { l with indent := column, outer := l.indent :: l.outer,
             tokens := l.tokens.take number ++ t :: l.tokens.drop number }
  else l

/-! ## Steps -/

/-- Skip blanks, comments and line breaks; a key may start behind a line break outside flow collections. -/
def skipSpace : (fuel : Nat) → Lexer → Lexer
  | 0, l => l
  | fuel + 1, l =>
    let p := l.place.skipWhile (· == ' ')
    let p := if p.rest.startsWith "#" then p.skipWhile (!isBreak ·) else p
    match p.rest with
    | c :: _ =>
      if isBreak c then skipSpace fuel { l with place := p.nextLine, keyAllowed := l.keyAllowed || !l.inFlow }
      else { l with place := p }
    | [] => { l with place := p }

/-- A document separator. -/
def separator (l : Lexer) (t : Token) : Option Lexer := do
  let l ← (l.unwind (-1)).dropKey
  some ((l.push t).advance 3 |>.allowKey false)

/-- Open a flow collection. -/
def openFlow (l : Lexer) (t : Token) : Option Lexer := do
  let l ← l.markKey
  some (({ l with keys := none :: l.keys }.push t).advance 1 |>.allowKey true)

/-- Close a flow collection. -/
def closeFlow (l : Lexer) (t : Token) : Option Lexer := do
  guard l.inFlow
  let l ← l.dropKey
  some (({ l with keys := l.keys.drop 1 }.push t).advance 1 |>.allowKey false)

/-- A comma between the items of a flow collection. -/
def comma (l : Lexer) : Option Lexer := do
  let l ← l.dropKey
  some ((l.push .comma).advance 1 |>.allowKey true)

/-- A hyphen in front of an item, or a question mark in front of a key. -/
def indicator (l : Lexer) (start t : Token) (allowedNext : Bool) : Option Lexer := do
  guard (l.inFlow || l.keyAllowed)
  let l := if l.inFlow then l else l.openAt l.place.column l.tokens.length start
  let l ← l.dropKey
  some ((l.push t).advance 1 |>.allowKey allowedNext)

/-- A colon. Behind a token that may be a key it makes it one. -/
def colon (l : Lexer) : Option Lexer := do
  let l ← match l.keys with
    | some k :: ks =>
      let l := { l with keys := none :: ks,
                        tokens := l.tokens.take k.number ++ Token.key :: l.tokens.drop k.number }
      let l := if l.inFlow then l else l.openAt k.column k.number .mappingStart
      some (l.allowKey false)
    | _ => do
      guard (l.inFlow || l.keyAllowed)
      let l := if l.inFlow then l else l.openAt l.place.column l.tokens.length .mappingStart
      (l.allowKey (!l.inFlow)).dropKey
  some ((l.push .value).advance 1)

/-- A scalar in quotes. -/
def quoted (l : Lexer) (isDouble : Bool) : Option Lexer := do
  let l ← l.markKey
  let (t, p) ← quotedFrom isDouble (l.place.rest.length + 1) (l.place.advance 1)
  some ({ l with place := p, keyAllowed := false }.push (.scalar t false))

/-- A scalar without quotes. -/
def plain (l : Lexer) : Option Lexer := do
  let l ← l.markKey
  let (t, p, ended) := plainFrom l.inFlow (l.indent + 1) (l.place.rest.length + 1) [] false l.place
  some ({ l with place := p, keyAllowed := ended }.push (.scalar t true))

/-- Can a plain scalar start with this text? -/
def startsPlain (l : Lexer) (c : Char) (s : Text) : Bool :=
  !"-?:,[]\x7b\x7d#&*!|>'\"%@\x60".toList.contains c && !endsToken (some c) ||
    (!endsToken s.head? && (c == '-' || (!l.inFlow && (c == '?' || c == ':'))))

/-- Read the token that starts at the place. -/
def token (l : Lexer) (c : Char) (s : Text) : Option Lexer :=
  let atStart := l.place.column == 0
  let spaced := endsToken s.head?
  if atStart && c == '%' then none
  else if atStart && c == '-' && atSeparator (c :: s) then l.separator .documentStart
  else if atStart && c == '.' && atSeparator (c :: s) then l.separator .documentEnd
  else if c == '[' then l.openFlow .flowSequenceStart
  else if c == '{' then l.openFlow .flowMappingStart
  else if c == ']' then l.closeFlow .flowSequenceEnd
  else if c == '}' then l.closeFlow .flowMappingEnd
  else if c == ',' then l.comma
  else if c == '-' && spaced then l.indicator .sequenceStart .entry true
  else if c == '?' && (l.inFlow || spaced) then l.indicator .mappingStart .key (!l.inFlow)
  else if c == ':' && (l.inFlow || spaced) then l.colon
  else if c == '\'' then l.quoted false
  else if c == '"' then l.quoted true
  else if l.startsPlain c s then l.plain
  else none

/-- Read all tokens that are left. -/
def run : (fuel : Nat) → Lexer → Option (List Token)
  | 0, _ => none
  | fuel + 1, l => do
    let l ← (skipSpace (l.place.rest.length + 1) l).dropStaleKeys
    let l := l.unwind l.place.column
    match l.place.rest with
    | [] => do
      let l ← (l.unwind (-1)).dropKey
      some l.tokens
    | c :: s => run fuel (← l.token c s)

end Lexer

/-- Characters that a YAML text may hold. -/
def isAllowed (c : Char) : Bool :=
  let n := c.toNat
  n == 9 || n == 10 || n == 13 || (32 ≤ n && n ≤ 126) || n == 0x85 || (0xA0 ≤ n && n ≤ 0xFFFD) || 0x10000 ≤ n

/-- Cut a text into tokens; a byte order mark in front does not count. -/
def Token.scan? (t : Text) : Option (List Token) := do
  guard (t.all isAllowed)
  let start : Place := ⟨t, 0, 0, 0⟩
  let start := if t.head? = some byteOrderMark then start.advance 1 else start
  Lexer.run (t.length + 2) ⟨start, -1, [], true, [none], []⟩

end SassModules.Yaml
