import ClientGen.Decimal.Shortest
import ClientGen.Text.Integer
import ClientGen.Text.CodePoint
import ClientGen.Value.Basic

/-!
# Reading JSON

A reader for JSON texts that reports the first fault with its place. Besides JSON it takes the words
for infinity and for an undefined number. A name that is repeated in one object keeps its first
place and takes its last value.
-/

namespace ClientGen.Json

/-- What is wrong with a text. -/
inductive Fault where
  | expectedValue
  | expectedName
  | expectedColon
  | expectedComma
  | unterminatedString
  | controlCharacter
  | badEscape
  | badUnicodeEscape
  | extraData
  | byteOrderMark
  /-- An integer has more digits than are read. -/
  | tooManyDigits (count : Nat)
  /-- Lists and objects stand in too many others. -/
  | tooDeep
deriving DecidableEq, Repr

/-- A fault and the number of code points before it. -/
structure ReadError where
  fault : Fault
  position : Nat
deriving DecidableEq, Repr

/-- The description of a fault. -/
def Fault.message : Fault → String
  | expectedValue => "Expecting value"
  | expectedName => "Expecting property name enclosed in double quotes"
  | expectedColon => "Expecting ':' delimiter"
  | expectedComma => "Expecting ',' delimiter"
  | unterminatedString => "Unterminated string starting at"
  | controlCharacter => "Invalid control character at"
  | badEscape => "Invalid \\escape"
  | badUnicodeEscape => "Invalid \\uXXXX escape"
  | extraData => "Extra data"
  | byteOrderMark => "Unexpected UTF-8 BOM (decode using utf-8-sig)"
  | tooManyDigits count => Text.excessMessage (some count)
  | tooDeep => "Nested too deep"

/-- The line and column, both from one, of the code point after the first `position` ones. -/
def lineAndColumn (text : List Nat) (position : Nat) : Nat × Nat :=
  let before := text.take position
  (before.count 10 + 1, (before.reverse.takeWhile (· != 10)).length + 1)

/-- The description of a fault with its place in the text. -/
def ReadError.message (e : ReadError) (text : String) : String :=
  let (line, column) := lineAndColumn (Text.codes text.toList) e.position
  s!"{e.fault.message}: line {line} column {column} (char {e.position})"

/-- The characters still to be read and the number of code points read. -/
structure Cursor where
  rest : List Char
  position : Nat

namespace Cursor

/-- Reports a fault at the cursor. -/
def fail {α : Type} (c : Cursor) (fault : Fault) : Except ReadError α :=
  .error ⟨fault, c.position⟩

/-- The cursor after the next `n` characters, each a code point of its own. -/
def skip (c : Cursor) (n : Nat) : Cursor := ⟨c.rest.drop n, c.position + n⟩

/-- The characters of the next code point, and the cursor behind it. -/
def code (c : Cursor) : List Char × Cursor :=
  let length := match c.rest with
    | a :: b :: _ => if a == Text.mark && Text.isReserved b then 2 else 1
    | _ => 1
  (c.rest.take length, ⟨c.rest.drop length, c.position + 1⟩)

end Cursor

/-- Spaces between tokens. -/
def isSpace (c : Char) : Bool := c = ' ' || c = '\t' || c = '\n' || c = '\r'

/-- Passes over the spaces at a position. -/
def skipSpaces : (rest : List Char) → (position : Nat) → Cursor
  | [], p => ⟨[], p⟩
  | c :: rest, p => if isSpace c then skipSpaces rest (p + 1) else ⟨c :: rest, p⟩

/-! ## Strings -/

/-- The value of a hexadecimal digit. -/
def hexValue? (c : Char) : Option Nat :=
  let n := c.toNat
  if 48 ≤ n ∧ n ≤ 57 then some (n - 48)
  else if 97 ≤ n ∧ n ≤ 102 then some (n - 87)
  else if 65 ≤ n ∧ n ≤ 70 then some (n - 55)
  else none

/-- The value of four hexadecimal digits. -/
def hexUnit? : List Char → Option Nat
  | [a, b, c, d] => do
    return (((← hexValue? a) * 16 + (← hexValue? b)) * 16 + (← hexValue? c)) * 16 + (← hexValue? d)
  | _ => none

/-- What a letter after a backslash stands for. -/
def simpleEscape? (c : Char) : Option Char :=
  if c = '"' ∨ c = '\\' ∨ c = '/' then some c
  else if c = 'b' then some (Char.ofNat 8)
  else if c = 'f' then some (Char.ofNat 12)
  else if c = 'n' then some '\n'
  else if c = 'r' then some '\r'
  else if c = 't' then some '\t'
  else none

/-- The second half of a surrogate pair at `rest`. A closing quote has to be able to follow it. -/
def lowSurrogate? (rest : List Char) (position : Nat) : Except ReadError (Option Nat) :=
  match rest with
  | '\\' :: 'u' :: more =>
    if (more.drop 4).isEmpty then .ok none
    else
      match hexUnit? (more.take 4) with
      | none => .error ⟨.badUnicodeEscape, position + 1⟩
      | some n => .ok (if Text.isLowHalf n then some n else none)
  | _ => .ok none

/-- The code point of an escape that gives a UTF-16 unit in hexadecimal, and the cursor behind it.
`c` stands behind the letter that opens the escape. -/
def readUnitEscape (c : Cursor) : Except ReadError (Nat × Cursor) := do
  let faulty : ReadError := ⟨.badUnicodeEscape, c.position - 1⟩
  if (c.rest.drop 4).isEmpty then throw faulty
  match hexUnit? (c.rest.take 4) with
  | none => throw faulty
  | some n =>
    let next := c.skip 4
    if Text.isHighHalf n then
      match ← lowSurrogate? next.rest next.position with
      | some low =>
        return (Text.ofPair n low, next.skip 6)
      | none => return (n, next)
    else return (n, next)

/-- Reads the rest of a string whose quote opened at `start`; `done` holds the characters read so
far in reverse. -/
def readString (start : Nat) : (fuel : Nat) → Cursor → (done : List Char) →
    Except ReadError (String × Cursor)
  | 0, _, _ => .error ⟨.unterminatedString, start⟩
  | fuel + 1, c, done =>
    match c.rest with
    | [] => .error ⟨.unterminatedString, start⟩
    | '"' :: _ => .ok (String.ofList done.reverse, c.skip 1)
    | ['\\'] => .error ⟨.unterminatedString, start⟩
    | '\\' :: 'u' :: _ => do
      let (n, next) ← readUnitEscape (c.skip 2)
      readString start fuel next ((Text.charsOf n).reverse ++ done)
    | '\\' :: letter :: _ =>
      match simpleEscape? letter with
      | some d => readString start fuel (c.skip 2) (d :: done)
      | none => c.fail .badEscape
    | d :: _ =>
      if d.toNat < 32 then c.fail .controlCharacter
      else
        let (kept, next) := c.code
        readString start fuel next (kept.reverse ++ done)

/-! ## Numbers -/

/-- The value of a run of ASCII digits. -/
def digitsValue (cs : List Char) : Nat := cs.foldl (fun n c => n * 10 + (c.toNat - 48)) 0

/-- The digits after a point that is followed by at least one. -/
def fractionDigits : List Char → List Char
  | '.' :: rest => rest.takeWhile Char.isDigit
  | _ => []

/-- The sign and digits of an exponent, with the number of characters they take; an exponent
without digits is none. -/
def exponent? : List Char → Option (Int × Nat)
  | e :: rest =>
    if e = 'e' ∨ e = 'E' then
      let (negative, signs, digits) := match rest with
        | '+' :: more => (false, 1, more)
        | '-' :: more => (true, 1, more)
        | more => (false, 0, more)
      let ds := digits.takeWhile Char.isDigit
      if ds.isEmpty then none
      else
        let value : Int := digitsValue ds
        some (if negative then -value else value, 1 + signs + ds.length)
    else none
  | [] => none

/-- A number at the cursor: an integer, unless a fraction or an exponent follows. -/
def readNumber (c : Cursor) : Except ReadError (Value × Cursor) :=
  let negative := c.rest.head? == some '-'
  let unsigned := if negative then c.rest.drop 1 else c.rest
  let whole := match unsigned with
    | '0' :: _ => ['0']
    | cs => cs.takeWhile Char.isDigit
  if whole.isEmpty then c.fail .expectedValue
  else
    let signLength := if negative then 1 else 0
    let afterWhole := unsigned.drop whole.length
    let fraction := fractionDigits afterWhole
    let fractionLength := if fraction.isEmpty then 0 else fraction.length + 1
    let exponent := exponent? (afterWhole.drop fractionLength)
    let length := signLength + whole.length + fractionLength + (exponent.map (·.2)).getD 0
    let isInteger := fraction.isEmpty && exponent.isNone
    if isInteger && Text.mostDigits < whole.length then c.fail (.tooManyDigits whole.length)
    else if isInteger then
      let n : Int := digitsValue whole
      .ok (.int (if negative then -n else n), c.skip length)
    else
      let e := (exponent.map (·.1)).getD 0 - fraction.length
      .ok (.float (.ofScientific negative (digitsValue (whole ++ fraction)) e), c.skip length)

/-! ## Values -/

/-- The words that stand for values. -/
def words : List (String × Value) := [
  ("null", .null), ("true", .bool true), ("false", .bool false), ("NaN", .float (.undefined none)),
  ("Infinity", .float (.infinite false)), ("-Infinity", .float (.infinite true))]

/-- The word at the cursor, if there is one. -/
def word? (c : Cursor) : Option (Value × Cursor) :=
  (words.find? fun w => w.1.toList.isPrefixOf c.rest).map fun w => (w.2, c.skip w.1.length)

/-- How deep lists and objects may nest. -/
def deepest : Nat := 985

mutual

/-- Reads the value at the cursor, which stands in `level` lists and objects. -/
def readValue : (fuel level : Nat) → Cursor → Except ReadError (Value × Cursor)
  | 0, _, c => c.fail .expectedValue
  | fuel + 1, level, c =>
    match c.rest with
    | [] => c.fail .expectedValue
    | '"' :: rest => do
      let (s, next) ← readString c.position (rest.length + 1) (c.skip 1) []
      return (.str s, next)
    | '[' :: rest =>
      let first := skipSpaces rest (c.position + 1)
      if deepest ≤ level then c.fail .tooDeep
      else
        match first.rest with
        | ']' :: _ => .ok (.list [], first.skip 1)
        | _ => do
          let (items, next) ← readItems fuel (level + 1) first []
          return (.list items, next)
    | '\x7b' :: rest =>
      let first := skipSpaces rest (c.position + 1)
      if deepest ≤ level then c.fail .tooDeep
      else
        match first.rest with
        | '\x7d' :: _ => .ok (.map [], first.skip 1)
        | _ => do
          let (members, next) ← readMembers fuel (level + 1) first []
          return (.map (Entries.ofPairs members), next)
    | _ =>
      match word? c with
      | some found => .ok found
      | none => readNumber c

/-- Reads items up to the end of the list; `done` holds those already read in reverse. -/
def readItems : (fuel level : Nat) → Cursor → (done : List Value) →
    Except ReadError (List Value × Cursor)
  | 0, _, c, _ => c.fail .expectedValue
  | fuel + 1, level, c, done => do
    let (v, next) ← readValue fuel level c
    let c := skipSpaces next.rest next.position
    match c.rest with
    | ']' :: _ => return ((v :: done).reverse, c.skip 1)
    | ',' :: rest => readItems fuel level (skipSpaces rest (c.position + 1)) (v :: done)
    | _ => c.fail .expectedComma

/-- Reads members up to the end of the object; `done` holds those already read in reverse. -/
def readMembers : (fuel level : Nat) → Cursor → (done : List (Key × Value)) →
    Except ReadError (List (Key × Value) × Cursor)
  | 0, _, c, _ => c.fail .expectedName
  | fuel + 1, level, c, done => do
    let rest ← match c.rest with
      | '"' :: rest => pure rest
      | _ => c.fail .expectedName
    let (name, next) ← readString c.position (rest.length + 1) (c.skip 1) []
    let c := skipSpaces next.rest next.position
    let rest ← match c.rest with
      | ':' :: rest => pure rest
      | _ => c.fail .expectedColon
    let (v, next) ← readValue fuel level (skipSpaces rest (c.position + 1))
    let c := skipSpaces next.rest next.position
    let known := (Key.str name, v) :: done
    match c.rest with
    | '\x7d' :: _ => return (known.reverse, c.skip 1)
    | ',' :: rest => readMembers fuel level (skipSpaces rest (c.position + 1)) known
    | _ => c.fail .expectedComma

end

/-- The value of a JSON text. Each bracket takes two steps. -/
def read (text : String) : Except ReadError Value := do
  let cs := text.toList
  if cs.head? == some (Char.ofNat 0xfeff) then throw ⟨.byteOrderMark, 0⟩
  let (v, next) ← readValue (2 * cs.length + 2) 0 (skipSpaces cs 0)
  let c := skipSpaces next.rest next.position
  if c.rest.isEmpty then return v else c.fail .extraData

end ClientGen.Json
