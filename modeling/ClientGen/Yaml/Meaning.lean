import ClientGen.Decimal.Reader
import ClientGen.Value.Display
import ClientGen.Yaml.Node

/-!
# What scalars denote

The text of a scalar is read as its tag says. A tag that is written may ask for more than the text
gives, and a text may have the form of a number without being one. Bytes are written in base 64.
-/

namespace ClientGen.Text

/-! ## Bytes in base 64

Four characters of an alphabet of sixty-four give three bytes. Characters outside the alphabet are
passed over. One or two signs of filling make up for the characters that are missing at the end, and
end the text if they do; in any other place they are passed over too. -/

/-- The value of a character of the alphabet. -/
def sixtyFourth? (c : Char) : Option Nat :=
  if 'A' ≤ c ∧ c ≤ 'Z' then some (c.toNat - 65)
  else if 'a' ≤ c ∧ c ≤ 'z' then some (c.toNat - 71)
  else if '0' ≤ c ∧ c ≤ '9' then some (c.toNat + 4)
  else if c = '+' then some 62
  else if c = '/' then some 63
  else none

/-- The bytes of a text from a place in a group of four on. `position` is the number of characters
of the group before that place, `held` the bits of them that make no byte yet, and `filled` the
number of signs of filling since. -/
def bytesFrom (position held filled : Nat) : List Char → Option (List UInt8)
  | [] => if position = 0 then some [] else none
  | c :: rest =>
    if c = '=' then
      if position < 2 then bytesFrom position held filled rest
      else if 4 ≤ position + filled + 1 then some []
      else bytesFrom position held (filled + 1) rest
    else
      match sixtyFourth? c, position with
      | none, _ => bytesFrom position held filled rest
      | some n, 0 => bytesFrom 1 n 0 rest
      | some n, 1 => (bytesFrom 2 (n % 16) 0 rest).map ((4 * held + n / 16).toUInt8 :: ·)
      | some n, 2 => (bytesFrom 3 (n % 4) 0 rest).map ((16 * held + n / 4).toUInt8 :: ·)
      | some n, _ => (bytesFrom 0 0 0 rest).map ((64 * held + n).toUInt8 :: ·)

/-- The bytes that a text gives; a group that is not complete gives none. -/
def bytesOf? (text : String) : Option (List UInt8) := bytesFrom 0 0 0 text.toList

end ClientGen.Text

namespace ClientGen.Yaml

/-! ## Integers -/

/-- The integer of digits in a base, with a sign. -/
def integerIn (base : Nat) (negative : Bool) (digits : List Char) : Except Fault Int :=
  let text := String.ofList digits
  match Text.excess? base text, Text.integer? base text with
  | some count, _ => .error (.badScalar (.tooManyDigits count))
  | none, some n => .ok (if negative then -n else n)
  | none, none => .error (.badScalar (.notInteger base (Value.quoted text)))

/-- The value of parts that count sixtieths of one another, most significant first. -/
def sixtieths (negative : Bool) (parts : List (List Char)) : Except Fault Int := do
  let values ← parts.mapM (integerIn 10 false)
  let total := values.foldl (fun n d => 60 * n + d) 0
  return if negative then -total else total

/-- The integer that a text gives. -/
def integerOf (text : String) : Except Fault Int :=
  let cs := text.toList.filter (· != '_')
  let negative := cs.head? = some '-'
  match Text.dropSign cs with
  | [] => .error .unusable
  | ['0'] => .ok 0
  | '0' :: 'b' :: digits => integerIn 2 negative digits
  | '0' :: 'x' :: digits => integerIn 16 negative digits
  | '0' :: digits => integerIn 8 negative ('0' :: digits)
  | digits =>
    if digits.contains ':' then sixtieths negative (Text.splitWhere (· == ':') digits)
    else integerIn 10 negative digits

/-! ## Numbers with a point -/

/-- The decimal that a text gives. -/
def decimalOf (cs : List Char) : Except Fault Decimal :=
  match Decimal.ofText? (String.ofList cs) with
  | some d => .ok d
  | none => .error (.badScalar (.notNumber (Value.quoted (String.ofList cs))))

/-- The binary64 number of a decimal. -/
def floatOf : Decimal → Float
  | .finite negative digits exponent =>
    let magnitude := Float.ofScientific digits (exponent < 0) exponent.natAbs
    if negative then -magnitude else magnitude
  | .infinite negative => if negative then -(1.0 / 0.0) else 1.0 / 0.0
  | .undefined _ => 0.0 / 0.0

/-- The sum of parts that count sixtieths of one another, least significant first, each of which is
worth `weight` ones. -/
def sexagesimalSum (weight : Nat) : List Float → Float → Float
  | [], total => total
  | part :: rest, total =>
    sexagesimalSum (60 * weight) rest (total + part * Float.ofScientific weight false 0)

/-- A decimal with the other sign. -/
def negated : Decimal → Decimal
  | .finite negative digits exponent => .finite (!negative) digits exponent
  | .infinite negative => .infinite (!negative)
  | .undefined place => .undefined place

/-- The number of parts beyond which the weight of a part is no binary64 number. -/
def mostParts : Nat := 174

/-- The number with a point that a text gives. -/
def numberOf (text : String) : Except Fault Decimal := do
  let cs := (Text.lower text).toList.filter (· != '_')
  let signed (d : Decimal) := if cs.head? = some '-' then negated d else d
  if cs.isEmpty then throw .unusable
  let digits := Text.dropSign cs
  if digits = ".inf".toList then return signed (.infinite false)
  else if digits = ".nan".toList then return .undefined none
  else if digits.contains ':' then
    let parts ← (Text.splitWhere (· == ':') digits).mapM decimalOf
    if mostParts < parts.length then throw .unusable
    let total := sexagesimalSum 1 (parts.reverse.map floatOf) 0
    return signed (.ofBits total.toBits.toNat)
  else return signed (← decimalOf digits)

/-! ## Other scalars -/

/-- The truth value that a text gives. -/
def boolOf (text : String) : Except Fault Bool :=
  let word := Text.lower text
  if word = "yes" || word = "true" || word = "on" then .ok true
  else if word = "no" || word = "false" || word = "off" then .ok false
  else .error .unusable

/-- The date and time that a text gives. -/
def timestampOf (text : String) : Except Fault Timestamp :=
  match Timestamp.ofText? text with
  | none => .error .unusable
  | some t =>
    match Timestamp.check t with
    | .error fault => .error (.badScalar fault)
    | .ok _ => .ok t

/-- The bytes that a text in base 64 gives. -/
def bytesOf (text : String) : Except Fault (List UInt8) :=
  if text.toList.any fun c => 128 ≤ c.toNat then .error .broken
  else
    match Text.bytesOf? text with
    | some content => .ok content
    | none => .error .broken

/-- The value of a scalar with a tag. -/
def scalarValue (tag : Tag) (text : String) : Except Fault Value :=
  match tag with
  | .null => .ok .null
  | .bool => .bool <$> boolOf text
  | .int => .int <$> integerOf text
  | .float => .float <$> numberOf text
  | .timestamp => timestampOf text |>.map fun t => .other (.moment t)
  | .binary => bytesOf text |>.map fun content => .other (.bytes content)
  | .str => .ok (.str text)
  | _ => .error .broken

end ClientGen.Yaml
