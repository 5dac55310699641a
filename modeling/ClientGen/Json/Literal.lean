import ClientGen.Text.CodePoint

/-!
# JSON string literals

A string is written between double quotes in ASCII alone: quotes and backslashes are escaped, the
common controls have letters, and every other code point outside the printable ASCII range is
written by its UTF-16 units in hexadecimal. Half of a surrogate pair is a unit of its own; so a half
and the other half behind it read as the character that they make.
-/

namespace ClientGen.Json

/-- A hexadecimal digit in lower case. -/
def hexDigit (n : Nat) : Char :=
  if n < 10 then Char.ofNat (48 + n) else Char.ofNat (87 + n)

/-- The last `width` hexadecimal digits of `n`. -/
def hexDigits : (width n : Nat) → List Char
  | 0, _ => []
  | width + 1, n => hexDigits width (n / 16) ++ [hexDigit (n % 16)]

/-- The escape of one UTF-16 unit. -/
def unitEscape (n : Nat) : List Char := '\\' :: 'u' :: hexDigits 4 n

/-- The escapes of the UTF-16 units of a code point. -/
def unitEscapes (n : Nat) : List Char :=
  if n < 0x10000 then unitEscape n
  else unitEscape (0xd800 + (n - 0x10000) / 0x400) ++ unitEscape (0xdc00 + (n - 0x10000) % 0x400)

/-- How a code point is written inside a literal. -/
def escapeCode (n : Nat) : List Char :=
  if n = 34 then ['\\', '"']
  else if n = 92 then ['\\', '\\']
  else if n = 10 then ['\\', 'n']
  else if n = 13 then ['\\', 'r']
  else if n = 9 then ['\\', 't']
  else if n = 8 then ['\\', 'b']
  else if n = 12 then ['\\', 'f']
  else if 32 ≤ n ∧ n < 127 then [Char.ofNat n]
  else unitEscapes n

/-- The characters of the literal of a string. -/
def quoteChars (cs : List Char) : List Char :=
  '"' :: ((Text.codes cs).flatMap escapeCode ++ ['"'])

/-- The literal of a string. -/
def quote (s : String) : String := String.ofList (quoteChars s.toList)

end ClientGen.Json
