/-!
# Decimal numbers

Numbers with a fraction or an exponent are held as the shortest decimal that reads back as the same
binary64 number. This form has decidable equality, and it is what every writer prints.

A decimal reads back as a binary number when it lies in the interval of reals that round to that
number. The search goes over the grids of multiples of `10 ^ k`, from coarse to fine, and takes the
first grid on which one of the two neighbours of the number lies in that interval; of two such
neighbours the nearer one is taken, and of two that are equally near the even one.
-/

namespace ClientGen

/-- A binary64 number, by its shortest decimal. -/
inductive Decimal where
  /-- `digits × 10 ^ exponent`; zero is written with `digits = 0`. -/
  | finite (negative : Bool) (digits : Nat) (exponent : Int)
  /-- A value beyond the largest finite one. -/
  | infinite (negative : Bool)
  /-- No number at all. One that was computed is told apart from others by where it was. -/
  | undefined (place : Option Nat)
deriving DecidableEq, Repr, Inhabited

namespace Decimal

/-- Whether the number is zero, of either sign. -/
def isZero : Decimal → Bool
  | finite _ digits _ => digits == 0
  | _ => false

/-! ## Written form

A number whose first digit stands between the fourth place after the point and the sixteenth
before it is written positionally, with at least one digit on each side of the point. All others
have one digit before the point and an exponent of at least two digits. -/

/-- The decimal digits of `n`, most significant first. -/
def digitsOf (n : Nat) : List Char := (toString n).toList

/-- An exponent with its sign and at least two digits. -/
def exponentText (e : Int) : String :=
  let ds := digitsOf e.natAbs
  (if e < 0 then "e-" else "e+") ++ String.ofList (if ds.length < 2 then '0' :: ds else ds)

/-- The text of `digits × 10 ^ exponent`. -/
def magnitudeText (digits : Nat) (exponent : Int) : String :=
  let ds := digitsOf digits
  let point : Int := if digits == 0 then 1 else ds.length + exponent
  if -4 < point ∧ point ≤ 16 then
    if point ≤ 0 then
      "0." ++ String.ofList (List.replicate point.natAbs '0' ++ ds)
    else
      let whole := ds.take point.toNat
      let fraction := ds.drop point.toNat
      String.ofList (whole ++ List.replicate (point.toNat - ds.length) '0') ++ "."
        ++ (if fraction.isEmpty then "0" else String.ofList fraction)
  else
    match ds with
    | [] => ""
    | d :: rest =>
      String.ofList (d :: (if rest.isEmpty then [] else '.' :: rest)) ++ exponentText (point - 1)

/-- The text of a finite number, or the given words for the other two kinds. -/
def text (infinity undefinedWord : String) : Decimal → String
  | finite negative digits exponent =>
    (if negative then "-" else "") ++ magnitudeText digits exponent
  | infinite negative => (if negative then "-" else "") ++ infinity
  | undefined _ => undefinedWord

end Decimal

end ClientGen

namespace ClientGen.Decimal

/-! ## The shortest decimal of a binary64 number -/

/-- A positive number `mantissa × 2 ^ exponent` with the interval of reals that round to it, all
scaled by `unit`. -/
structure Neighbourhood where
  /-- Lower end, scaled. -/
  low : Nat
  /-- The number, scaled. -/
  value : Nat
  /-- Upper end, scaled. -/
  high : Nat
  /-- What one is scaled to. -/
  unit : Nat
  /-- Whether the ends round to the number as well. -/
  closed : Bool

/-- The neighbourhood of `mantissa × 2 ^ exponent`; below a power of two the gap is half as wide. -/
def neighbourhood (mantissa : Nat) (exponent : Int) (narrowBelow : Bool) : Neighbourhood :=
  let e := exponent - 2
  let scale := if 0 ≤ e then Nat.pow 2 e.toNat else 1
  { low := (4 * mantissa - if narrowBelow then 1 else 2) * scale
    value := 4 * mantissa * scale
    high := (4 * mantissa + 2) * scale
    unit := if 0 ≤ e then 1 else Nat.pow 2 e.natAbs
    closed := mantissa % 2 == 0 }

/-- Whether a scaled number rounds to the centre of the neighbourhood. -/
def Neighbourhood.contains (n : Neighbourhood) (x : Nat) : Bool :=
  if n.closed then n.low ≤ x && x ≤ n.high else n.low < x && x < n.high

/-- The neighbourhood measured on the grid of multiples of `10 ^ k`: all four numbers scaled so
that a grid step is a whole number, and that step. -/
def Neighbourhood.onGrid (n : Neighbourhood) (k : Int) : Neighbourhood × Nat :=
  if 0 ≤ k then (n, n.unit * Nat.pow 10 k.toNat)
  else
    let p := Nat.pow 10 k.natAbs
    ({ n with low := n.low * p, value := n.value * p, high := n.high * p }, n.unit)

/-- The nearer of a number and the next one, from the distances to them; the even one where these
are equal. -/
def nearer (below toBelow toAbove : Nat) : Nat :=
  if toBelow < toAbove then below
  else if toAbove < toBelow then below + 1
  else if below % 2 == 0 then below else below + 1

/-- The multiple of `10 ^ k` to print, if one next to the number reads back as it. -/
def Neighbourhood.hit? (n : Neighbourhood) (k : Int) : Option Nat :=
  let (m, step) := n.onGrid k
  let below := m.value / step
  let above := below + 1
  match below != 0 && m.contains (below * step), m.contains (above * step) with
  | true, true => some (nearer below (m.value - below * step) (above * step - m.value))
  | true, false => some below
  | false, true => some above
  | false, false => none

/-- Searches `fuel` grids from `10 ^ k` downwards. -/
def Neighbourhood.search (n : Neighbourhood) : (fuel : Nat) → (k : Int) → Nat × Int
  | 0, k => (0, k)
  | fuel + 1, k =>
    match n.hit? k with
    | some d => (d, k)
    | none => n.search fuel (k - 1)

/-- The positive number `mantissa × 2 ^ exponent` that the lower bits of a binary64 number give. -/
def magnitudeOfBits (bits : Nat) : Nat × Int :=
  let biased := bits / Nat.pow 2 52 % 2048
  let fraction := bits % Nat.pow 2 52
  if biased == 0 then (fraction, -1074) else (Nat.pow 2 52 + fraction, (biased : Int) - 1075)

/-- The decimal of a binary64 number given by its bits. -/
def ofBits (bits : Nat) : Decimal :=
  let negative := bits / Nat.pow 2 63 % 2 == 1
  let biased := bits / Nat.pow 2 52 % 2048
  let fraction := bits % Nat.pow 2 52
  if biased == 2047 then
    if fraction == 0 then infinite negative else undefined (some 0)
  else if biased == 0 && fraction == 0 then finite negative 0 0
  else
    let (mantissa, exponent) := magnitudeOfBits bits
    let n := neighbourhood mantissa exponent (fraction == 0 && 1 < biased)
    let (digits, k) := n.search 660 310
    finite negative digits k

/-- The binary64 number nearest to `mantissa × 10 ^ exponent`. Exponents far outside the range of
binary64 are cut, which changes nothing. -/
def ofScientific (negative : Bool) (mantissa : Nat) (exponent : Int) : Decimal :=
  let places : Int := (digitsOf mantissa).length
  let magnitude : Float :=
    if mantissa == 0 || exponent + places < -400 then 0
    else if 400 < exponent + places then Float.ofScientific 1 false 400
    else Float.ofScientific mantissa (exponent < 0) exponent.natAbs
  ofBits (magnitude.toBits.toNat + if negative then Nat.pow 2 63 else 0)

/-- The value of the number itself, of which the decimal is only the shortest name: a numerator and
a denominator. -/
def fraction? : Decimal → Option (Int × Nat)
  | finite negative digits exponent =>
    let number := Float.ofScientific digits (exponent < 0) exponent.natAbs
    let (mantissa, exponent) := magnitudeOfBits number.toBits.toNat
    let (numerator, denominator) := match exponent with
      | .ofNat e => (mantissa * Nat.pow 2 e, 1)
      | .negSucc e => (mantissa, Nat.pow 2 (e + 1))
    some (if negative then -(numerator : Int) else numerator, denominator)
  | _ => none

end ClientGen.Decimal
