import ClientGen.Decimal.Shortest
import ClientGen.Text.Case
import ClientGen.Text.Integer

/-!
# Reading decimal numbers

A number has an optional sign, digits with at most one point, and an optional exponent. Infinity and
the value that is no number are given by words.
-/

namespace ClientGen.Decimal

/-- The exponent of ten that follows the digits of a number. -/
def exponent? : List Char → Option Int
  | [] => some 0
  | 'e' :: '-' :: digits => (Text.natural? 10 digits).map fun n => -(n : Int)
  | 'e' :: '+' :: digits => (Text.natural? 10 digits).map Int.ofNat
  | 'e' :: digits => (Text.natural? 10 digits).map Int.ofNat
  | _ => none

/-- The number that digits give, in small letters and without sign. -/
def unsigned? (negative : Bool) (cs : List Char) : Option Decimal :=
  let isDigit (c : Char) := c = '_' || (Text.decimalValue? c).isSome
  let whole := cs.takeWhile isDigit
  let fraction := match cs.drop whole.length with
    | '.' :: rest => rest.takeWhile isDigit
    | _ => []
  let point := match cs.drop whole.length with
    | '.' :: _ => 1
    | _ => 0
  let value (digits : List Char) : Option Nat :=
    if digits.isEmpty then some 0 else Text.natural? 10 digits
  if whole.isEmpty && fraction.isEmpty then none
  else do
    let m ← value whole
    let f ← value fraction
    let e ← exponent? (cs.drop (whole.length + point + fraction.length))
    let places := (fraction.filter (· != '_')).length
    return ofScientific negative (m * Nat.pow 10 places + f) (e - places)

/-- The number that a text gives. -/
def ofText? (s : String) : Option Decimal :=
  let cs := (Text.lower (String.ofList (Text.stripWhile Text.isNumberBlank s.toList))).toList
  let negative := cs.head? = some '-'
  let rest := if cs.head? = some '-' || cs.head? = some '+' then cs.drop 1 else cs
  if rest = "inf".toList || rest = "infinity".toList then some (.infinite negative)
  else if rest = "nan".toList then some (.undefined (some 0))
  else unsigned? negative rest

end ClientGen.Decimal
