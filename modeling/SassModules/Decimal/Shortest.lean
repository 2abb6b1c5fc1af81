import SassModules.Text.Number

/-!
# Shortest decimals

A binary floating-point number in the fewest decimal digits that read back as the same number; of two such decimals the
nearer one, of two equally near the even one. `NumberFormat` then says how digits and exponent are written. All arithmetic
is exact.
-/

namespace SassModules.Decimal

/-- A positive number `mantissa * 2 ^ exponent`; `atBoundary` says that the next smaller number is half as far away as the
next larger one. -/
structure Binary where
  mantissa : Nat
  exponent : Int
  atBoundary : Bool

/-- Digits and the position of the point: `0.digits * 10 ^ point`. -/
structure Digits where
  digits : Nat
  point : Int

/-- A fraction in natural numbers. -/
structure Ratio where
  num : Nat
  den : Nat

/-- Four times a mantissa, moved by an offset, as a fraction at a quarter of the exponent. -/
def Binary.quarters (b : Binary) (shifted : Nat) : Ratio :=
  if 2 ≤ b.exponent then ⟨shifted * Nat.pow 2 (b.exponent - 2).toNat, 1⟩
  else ⟨shifted, Nat.pow 2 (2 - b.exponent).toNat⟩

/-- A fraction times a power of ten. -/
def Ratio.scale (r : Ratio) (power : Int) : Ratio :=
  if 0 ≤ power then ⟨r.num * Nat.pow 10 power.toNat, r.den⟩
  else ⟨r.num, r.den * Nat.pow 10 (-power).toNat⟩

/-- The least number of digits that the whole part of a fraction needs, for a fraction of at least one. -/
def wholeDigits (r : Ratio) : Nat := (Text.ofNat (r.num / r.den)).length

/-- The decimal exponent of a fraction: it is at least `10 ^ (e - 1)` and less than `10 ^ e`. -/
def decimalExponent (r : Ratio) : Int :=
  if r.den ≤ r.num then wholeDigits r
  else
    -- for a fraction below one, count the whole digits of its inverse
    let inverse := wholeDigits ⟨r.den, r.num⟩
    if r.den % r.num = 0 ∧ r.den / r.num = Nat.pow 10 (inverse - 1) then 2 - inverse else 1 - inverse

/-- Does a whole number lie between two fractions of the same scale, the ends counting when `closed`? -/
def within (closed : Bool) (low high : Ratio) (n : Nat) : Bool :=
  if closed then low.num ≤ n * low.den && n * high.den ≤ high.num
  else low.num < n * low.den && n * high.den < high.num

/-- The nearest whole number to a fraction among those that pass a test, of its two neighbours. -/
def nearest? (r : Ratio) (test : Nat → Bool) : Option Nat :=
  let below := r.num / r.den
  let rest := r.num % r.den
  match test below, test (below + 1) with
  | true, true =>
    if 2 * rest < r.den then some below
    else if r.den < 2 * rest then some (below + 1)
    else some (if below % 2 = 0 then below else below + 1)
  | true, false => some below
  | false, true => some (below + 1)
  | false, false => none

/-- The digits of a number at the first grid, of those with `count` digits and up to `fuel` more, that has a decimal which
reads back. -/
def digitsFrom (b : Binary) (exponent : Int) : (fuel count : Nat) → Digits
  | 0, _ => ⟨0, 0⟩
  | fuel + 1, count =>
    let power := (count : Int) - exponent
    let at_ (n : Nat) : Ratio := (b.quarters n).scale power
    let low := at_ (4 * b.mantissa - if b.atBoundary then 1 else 2)
    let high := at_ (4 * b.mantissa + 2)
    match nearest? (at_ (4 * b.mantissa)) (within (b.mantissa % 2 = 0) low high) with
    | some n => ⟨n, if n = Nat.pow 10 count then exponent + 1 else exponent⟩
    | none => digitsFrom b exponent fuel (count + 1)

/-- The fewest digits that read back; seventeen always do. -/
def shortest (b : Binary) : Digits := digitsFrom b (decimalExponent (b.quarters (4 * b.mantissa))) 18 1

/-- How a number is written: positionally when the point stands in the given range, else with an exponent of at least so
many digits. -/
structure NumberFormat where
  leastPoint : Int
  mostPoint : Int
  exponentWidth : Nat
  infinity : Text
  notANumber : Text

/-- A text with zeros in front up to a width. -/
def padZeros (width : Nat) (t : Text) : Text := List.replicate (width - t.length) '0' ++ t

/-- Digits in the given format. A whole number keeps one zero behind the point. -/
def NumberFormat.write (f : NumberFormat) (d : Digits) : Text :=
  let digits := Text.dropEndWhile (· == '0') (Text.ofNat d.digits)
  if f.leastPoint ≤ d.point ∧ d.point ≤ f.mostPoint then
    if d.point ≤ 0 then "0.".toList ++ List.replicate (-d.point).toNat '0' ++ digits
    else
      let n := d.point.toNat
      let whole := digits.take n ++ List.replicate (n - digits.length) '0'
      let rest := digits.drop n
      whole ++ '.' :: (if rest = [] then ['0'] else rest)
  else
    let exponent := d.point - 1
    let sign := if exponent < 0 then '-' else '+'
    let mantissa := match digits with
      | [] => ['0']
      | [c] => [c]
      | c :: cs => c :: '.' :: cs
    mantissa ++ 'e' :: sign :: padZeros f.exponentWidth (Text.ofNat exponent.natAbs)

/-- A floating-point number in the given format. -/
def NumberFormat.ofFloat (f : NumberFormat) (x : Float) : Text :=
  let bits : Nat := x.toBits.toNat
  let fraction : Nat := bits % Nat.pow 2 52
  let biased : Nat := bits / Nat.pow 2 52 % Nat.pow 2 11
  let sign := if bits / Nat.pow 2 63 = 1 then ['-'] else []
  if biased = 2047 then if fraction = 0 then sign ++ f.infinity else f.notANumber
  else if biased = 0 ∧ fraction = 0 then sign ++ "0.0".toList
  else if biased = 0 then sign ++ f.write (shortest ⟨fraction, -1074, false⟩)
  else sign ++ f.write (shortest ⟨Nat.pow 2 52 + fraction, Int.ofNat biased - 1075, fraction == 0 && 1 < biased⟩)

end SassModules.Decimal
