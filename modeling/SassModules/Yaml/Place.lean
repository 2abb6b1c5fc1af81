import SassModules.Text.Number

/-!
# Places in a YAML text

A place is what is left of the text with the line and column where it begins. Plain and quoted scalars are read here; both
may go over several lines, and a single line break between two lines of a scalar counts as a blank.
-/

namespace SassModules.Yaml

/-- What is left of a text, and where it begins. -/
structure Place where
  rest : Text
  index : Nat
  line : Nat
  column : Nat

/-- The mark that may stand in front of a text. -/
def byteOrderMark : Char := Char.ofNat 0xFEFF

/-- A character that ends a line. -/
def isBreak (c : Char) : Bool :=
  c == '\n' || c == '\r' || c == Char.ofNat 0x85 || c == Char.ofNat 0x2028 || c == Char.ofNat 0x2029

/-- The character that a line break stands for in a scalar. -/
def breakText (c : Char) : Char := if c.toNat = 0x2028 ∨ c.toNat = 0x2029 then c else '\n'

/-- Does nothing, a blank, a tab or a line break come next? -/
def endsToken (c : Option Char) : Bool := c.all fun c => c == ' ' || c == '\t' || isBreak c

/-- Does a document separator stand at the start of a line? -/
def atSeparator (s : Text) : Bool := (s.startsWith "---" || s.startsWith "...") && endsToken s[3]?

namespace Place

/-- Go on by some characters of the line; a byte order mark has no width. -/
def advance (p : Place) (n : Nat) : Place :=
  { p with rest := p.rest.drop n, index := p.index + n, column := p.column + (p.rest.take n).countP (· != byteOrderMark) }

/-- Go on behind a line break. -/
def nextLine (p : Place) : Place := ⟨p.rest.drop 1, p.index + 1, p.line + 1, 0⟩

/-- Go on behind the characters of a class. -/
def skipWhile (p : Place) (test : Char → Bool) : Place := p.advance (p.rest.takeWhile test).length

end Place

/-! ## Line breaks in scalars -/

/-- The breaks of empty lines from the start of a line on; no text when a document separator is met. -/
def emptyLines (blank : Char → Bool) : (fuel : Nat) → Place → Option Text × Place
  | 0, p => (some [], p)
  | fuel + 1, p =>
    if atSeparator p.rest then (none, p)
    else
      let p := p.skipWhile blank
      match p.rest with
      | c :: _ =>
        if isBreak c then
          let (more, q) := emptyLines blank fuel p.nextLine
          (more.map (breakText c :: ·), q)
        else (some [], p)
      | [] => (some [], p)

/-- The text for a line break and the empty lines after it. -/
def folded (first : Char) (more : Text) : Text :=
  if breakText first = '\n' then if more = [] then [' '] else more else breakText first :: more

/-! ## Plain scalars -/

/-- Does a plain scalar stop in front of this text? -/
def stopsPlain (inFlow : Bool) : Text → Bool
  | [] => true
  | c :: s =>
    endsToken (some c) || (c == ':' && (endsToken s.head? || (inFlow && s.head?.any ",[]\x7b\x7d".toList.contains))) ||
      (inFlow && ",?[]\x7b\x7d".toList.contains c)

/-- The length of the next word of a plain scalar. -/
def wordLength (inFlow : Bool) : Text → Nat
  | [] => 0
  | c :: s => if stopsPlain inFlow (c :: s) then 0 else wordLength inFlow s + 1

/-- The blanks or line breaks behind a word: their text, the place behind them, and whether a line ended. -/
def wordSpace (p : Place) : Option Text × Place × Bool :=
  let blanks := p.rest.takeWhile (· == ' ')
  let p := p.advance blanks.length
  match p.rest with
  | c :: _ =>
    if isBreak c then
      let (more, q) := emptyLines (· == ' ') p.rest.length p.nextLine
      (more.map (folded c), q, true)
    else (some blanks, p, false)
  | [] => (some blanks, p, false)

/-- A plain scalar that stays right of a column: its text, the place behind it, and whether its last line ended. The
space in front of a word is kept only when a word follows. -/
def plainFrom (inFlow : Bool) (least : Int) : (fuel : Nat) → (space : Text) → (ended : Bool) → Place →
    Text × Place × Bool
  | 0, _, ended, p => ([], p, ended)
  | fuel + 1, space, ended, p =>
    let n := if p.rest.startsWith "#" then 0 else wordLength inFlow p.rest
    if n = 0 then ([], p, ended)
    else
      let word := space ++ p.rest.take n
      let (next, p, ended) := wordSpace (p.advance n)
      match next with
      | some (c :: space) =>
        if p.rest.startsWith "#" || (!inFlow && (p.column : Int) < least) then (word, p, ended)
        else
          let (more, p, ended) := plainFrom inFlow least fuel (c :: space) ended p
          (word ++ more, p, ended)
      | _ => (word, p, ended)

/-! ## Quoted scalars -/

/-- The characters of one-letter escapes. -/
def shortEscapes : List (Char × Nat) :=
  [('0', 0), ('a', 7), ('b', 8), ('t', 9), ('\t', 9), ('n', 10), ('v', 11), ('f', 12), ('r', 13), ('e', 27), (' ', 32),
   ('"', 34), ('\\', 92), ('/', 47), ('N', 0x85), ('_', 0xA0), ('L', 0x2028), ('P', 0x2029)]

/-- The number of hexadecimal digits behind an escape letter. -/
def codeLength? : Char → Option Nat
  | 'x' => some 2
  | 'u' => some 4
  | 'U' => some 8
  | _ => none

/-- The value of exactly so many hexadecimal digits. -/
def code? (n : Nat) (s : Text) : Option Nat :=
  let digits := s.take n
  if digits.length = n then Text.digitsValue? 16 Text.hexValue? digits else none

/-- The rest of a quoted scalar, behind the opening quote; none when it is not closed. -/
def quotedFrom (isDouble : Bool) : (fuel : Nat) → Place → Option (Text × Place)
  | 0, _ => none
  | fuel + 1, p =>
    let go (front : Text) (p : Place) : Option (Text × Place) :=
      (quotedFrom isDouble fuel p).map fun r => (front ++ r.1, r.2)
    match p.rest with
    | [] => none
    | c :: s =>
      if isDouble && c == '"' then some ([], p.advance 1)
      else if !isDouble && c == '\'' then
        if s.head? = some '\'' then go ['\''] (p.advance 2) else some ([], p.advance 1)
      else if isDouble && c == '\\' then
        match s with
        | [] => none
        | e :: t =>
          if isBreak e then
            let (more, q) := emptyLines (fun c => c == ' ' || c == '\t') s.length (p.advance 1).nextLine
            more.bind fun m => go m q
          else match shortEscapes.lookup e, codeLength? e with
            | some n, _ => go [Char.ofNat n] (p.advance 2)
            | none, some n => (code? n t).bind fun code => go [Char.ofNat code] (p.advance (2 + n))
            | none, none => none
      else if c == ' ' || c == '\t' || isBreak c then
        let blanks := p.rest.takeWhile fun c => c == ' ' || c == '\t'
        let p := p.advance blanks.length
        match p.rest with
        | [] => none
        | b :: _ =>
          if isBreak b then
            let (more, q) := emptyLines (fun c => c == ' ' || c == '\t') p.rest.length p.nextLine
            more.bind fun m => go (folded b m) q
          else go blanks p
      else go [c] (p.advance 1)

end SassModules.Yaml
