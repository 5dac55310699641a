import ClientGen.Text.Integer
import ClientGen.Text.Printable
import ClientGen.Json.Literal
import ClientGen.Value.Basic

/-!
# Values in running text

How a value reads inside a message or a name. A string stands for itself; inside a list or a
mapping it is quoted, with single quotes unless it holds single quotes and no double ones. The
words for `null` and the truth values are capitalised. Bytes are quoted in the same way, behind a
letter that tells them from text. An integer with very many digits has no text.
-/

namespace ClientGen

namespace Value

/-- A code point with a backslash before it, in text quoted by `q`, if it needs one there. -/
def simpleEscape? (q : Char) (n : Nat) : Option (List Char) :=
  if n = q.toNat then some ['\\', q]
  else if n = 92 then some ['\\', '\\']
  else if n = 10 then some ['\\', 'n']
  else if n = 13 then some ['\\', 'r']
  else if n = 9 then some ['\\', 't']
  else none

/-- How a code point is written by its number. -/
def numberEscape (n : Nat) : List Char :=
  if n < 0x100 then '\\' :: 'x' :: Json.hexDigits 2 n
  else if n < 0x10000 then '\\' :: 'u' :: Json.hexDigits 4 n
  else '\\' :: 'U' :: Json.hexDigits 8 n

/-- How a code point is written in text quoted by `q`, where those that `isShown` stand for
themselves. -/
def displayCode (isShown : Nat → Bool) (q : Char) (n : Nat) : List Char :=
  match simpleEscape? q n with
  | some escape => escape
  | none => if isShown n then Text.charsOf n else numberEscape n

/-- Code points between quotes. -/
def betweenQuotes (isShown : Nat → Bool) (codes : List Nat) : List Char :=
  let q := if codes.contains 39 && !codes.contains 34 then '"' else '\''
  q :: (codes.flatMap (displayCode isShown q) ++ [q])

/-- Whether a code point leaves ink. A half of a surrogate pair does not. -/
def leavesInk (n : Nat) : Bool := !Text.isHalf n && Text.isPrintable (Char.ofNat n)

/-- Text in quotes. -/
def quoted (s : String) : String := String.ofList (betweenQuotes leavesInk (Text.codes s.toList))

/-- Bytes in quotes. -/
def quotedBytes (content : List UInt8) : String :=
  let isShown (n : Nat) : Bool := 32 ≤ n && n < 127
  String.ofList ('b' :: betweenQuotes isShown (content.map UInt8.toNat))

/-- The text of a scalar outside the JSON types, on its own. -/
def otherText : OtherScalar → String
  | .moment t => t.text
  | .bytes content => quotedBytes content

/-- The text of a scalar outside the JSON types, inside a list or a mapping. -/
def otherInner : OtherScalar → String
  | .moment t => t.inner
  | .bytes content => quotedBytes content

/-- The text of a truth value. -/
def truthText (b : Bool) : String := if b then "True" else "False"

/-- The text of a number with a fraction or exponent. -/
def decimalText (d : Decimal) : String := d.text "inf" "nan"

/-- The text of a key inside a mapping. -/
def innerKey : Key → String
  | .null => "None"
  | .bool b => truthText b
  | .int n => toString n
  | .float d => decimalText d
  | .str s => quoted s
  | .other x => otherInner x

mutual

/-- The text of a value inside a list or mapping. -/
def inner : Value → String
  | null => "None"
  | bool b => truthText b
  | int n => toString n
  | float d => decimalText d
  | str s => quoted s
  | other x => otherInner x
  | list items => "[" ++ ", ".intercalate (innerItems items) ++ "]"
  | map entries => "\x7b" ++ ", ".intercalate (innerMembers entries) ++ "\x7d"
  | pair a b => "(" ++ inner a ++ ", " ++ inner b ++ ")"
  | set members =>
    if members.isEmpty then "set()"
    else "\x7b" ++ ", ".intercalate (members.map innerKey) ++ "\x7d"
  | loop .list => "[...]"
  | loop .map => "\x7b...\x7d"
  | loop .pair => "(...)"

/-- The texts of the items of a list. -/
def innerItems : List Value → List String
  | [] => []
  | v :: rest => inner v :: innerItems rest

/-- The texts of the entries of a mapping. -/
def innerMembers : Entries → List String
  | [] => []
  | (k, v) :: rest => (innerKey k ++ ": " ++ inner v) :: innerMembers rest

end

/-- Whether an integer has no more digits than are written. -/
def isShort (n : Int) : Bool := n.natAbs < Nat.pow 10 Text.mostDigits

/-- Whether a key is no integer with too many digits. -/
def isShortKey : Key → Bool
  | .int n => isShort n
  | _ => true

mutual

/-- Whether no integer in a value has more digits than are written. -/
def isWritable : Value → Bool
  | int n => isShort n
  | list items => allWritable items
  | map entries => allWritableEntries entries
  | pair a b => isWritable a && isWritable b
  | set members => members.all isShortKey
  | _ => true

/-- Whether no integer in the items of a list has too many digits. -/
def allWritable : List Value → Bool
  | [] => true
  | v :: rest => isWritable v && allWritable rest

/-- Whether no integer in the entries of a mapping has too many digits. -/
def allWritableEntries : Entries → Bool
  | [] => true
  | (k, v) :: rest => isShortKey k && isWritable v && allWritableEntries rest

end

/-- The text of a value on its own. -/
def display : Value → String
  | str s => s
  | other x => otherText x
  | v => v.inner

end Value

/-- The text of a key on its own. -/
def Key.display : Key → String
  | .str s => s
  | .other x => Value.otherText x
  | k => Value.innerKey k

/-! ## Texts that may be missing -/

/-- Why a value has no text. -/
inductive Textless where
  /-- An integer has more digits than are written. -/
  | longInteger
  /-- A collection contains itself. -/
  | endless
  /-- The value is of a kind that has no text. -/
  | unsuitable
deriving DecidableEq, Repr

/-- The description of why a value has no text. -/
def Textless.message : Textless → String
  | longInteger => Text.excessMessage none
  | endless => "Circular reference detected"
  | unsuitable => "no text"

/-- The text of a value on its own, where no integer in it has too many digits. -/
def Value.shown (v : Value) : Except Textless String :=
  if v.isWritable then .ok v.display else .error .longInteger

/-- The text of a key on its own, where it has not too many digits. -/
def Key.shown (k : Key) : Except Textless String :=
  if Value.isShortKey k then .ok k.display else .error .longInteger

end ClientGen
