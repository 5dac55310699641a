import ClientGen.Text.Blank
import ClientGen.Text.Digit

/-!
# Reading integers

An integer has an optional sign and digits of any script, with single underscores between them if
one likes. Blank space around it is dropped, but no separators of records. In the bases two, eight
and sixteen the usual letter may stand before the digits, behind a zero; in any other base the
number of digits is limited.
-/

namespace ClientGen.Text

/-- Characters that may stand around a number: what is blank, apart from the four separators of
files, groups, records and units. -/
def isNumberBlank (c : Char) : Bool := isBlank c && !(28 ≤ c.toNat && c.toNat < 32)

/-- The value of a digit or letter in a base. -/
def digitValue? (base : Nat) (c : Char) : Option Nat :=
  let value? :=
    if 'a' ≤ c ∧ c ≤ 'z' then some (c.toNat - 87)
    else if 'A' ≤ c ∧ c ≤ 'Z' then some (c.toNat - 55)
    else decimalValue? c
  value?.filter (· < base)

/-- Reads digits onto `n`; an underscore has to stand between two digits. -/
def readDigits (base : Nat) (n : Nat) : List Char → Option Nat
  | [] => some n
  | '_' :: c :: rest => (digitValue? base c).bind fun d => readDigits base (base * n + d) rest
  | c :: rest => (digitValue? base c).bind fun d => readDigits base (base * n + d) rest

/-- The value of digits, of which there is at least one. -/
def natural? (base : Nat) : List Char → Option Nat
  | [] => none
  | c :: rest => (digitValue? base c).bind fun d => readDigits base d rest

/-- The letter that tells a base. -/
def baseLetter? (base : Nat) : Option Char :=
  if base = 2 then some 'b' else if base = 8 then some 'o' else if base = 16 then some 'x' else none

/-- Digits without the letter that tells their base. -/
def dropBaseLetter (base : Nat) (cs : List Char) : List Char :=
  match cs with
  | '0' :: c :: rest =>
    if baseLetter? base = some c.toLower then
      match rest with
      | '_' :: digits => digits
      | digits => digits
    else cs
  | _ => cs

/-- The most digits of a number in a base that is no power of two. -/
def mostDigits : Nat := 4300

/-- A text without the sign that it may begin with. -/
def dropSign : List Char → List Char
  | '+' :: rest => rest
  | '-' :: rest => rest
  | cs => cs

/-- The number of the digits at the beginning of a text. Single underscores may stand between them;
any other underscore makes the text no number. -/
def leadingDigits? (base : Nat) : List Char → Option Nat
  | '_' :: _ => none
  | c :: '_' :: rest =>
    if (digitValue? base c).isSome then (leadingDigits? base rest).bind fun n =>
      if n = 0 then none else some (n + 1)
    else some 0
  | c :: rest =>
    if (digitValue? base c).isSome then (leadingDigits? base rest).map (· + 1) else some 0
  | [] => some 0

/-- The number of the digits of a text, where there are too many of them. -/
def excess? (base : Nat) (s : String) : Option Nat :=
  if (baseLetter? base).isSome then none
  else
    (leadingDigits? base (dropSign (stripWhile isNumberBlank s.toList))).filter (mostDigits < ·)

/-- The message for a number that has too many digits, of which the given number was read. -/
def excessMessage (count : Option Nat) : String :=
  s!"Exceeds the limit ({mostDigits} digits) for integer string conversion"
    ++ (match count with
      | some n => s!": value has {n} digits"
      | none => "")
    ++ "; use sys.set_int_max_str_digits() to increase the limit"

/-- The integer that a text gives in a base. -/
def integer? (base : Nat) (s : String) : Option Int :=
  match stripWhile isNumberBlank s.toList with
  | '-' :: rest => (natural? base (dropBaseLetter base rest)).map fun n => -(n : Int)
  | '+' :: rest => (natural? base (dropBaseLetter base rest)).map Int.ofNat
  | cs => (natural? base (dropBaseLetter base cs)).map Int.ofNat

end ClientGen.Text
