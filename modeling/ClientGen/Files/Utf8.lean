import ClientGen.Files.Fault
import ClientGen.Text.CodePoint

/-!
# Bytes as text

Reading UTF-8, with the place and the length of the first fault. A character of several bytes begins
with a byte that tells how many there are; the second byte is limited so that every character has
one form only. Line breaks of other systems become line feeds when a file is read as text. The names
of files may be any bytes: a byte that belongs to no character is kept as half of a surrogate pair.
-/

namespace ClientGen.Utf8

/-! ## Writing -/

/-- The bytes of a code point that is no half. -/
def bytesOf (n : Nat) : List UInt8 := String.utf8EncodeChar (Char.ofNat n)

/-- The bytes of a text, if it has no halves of surrogate pairs. -/
def encode? (s : String) : Option (List UInt8) :=
  if s.toList.any Text.isReserved then
    let codes := Text.codes s.toList
    if codes.any Text.isHalf then none else some (codes.flatMap bytesOf)
  else some s.toUTF8.toList

/-- What is added to a byte for the half that it is kept as. -/
def byteOffset : Nat := 0xdc00

/-- The bytes of a code point in a name. -/
def nameBytesOf? (n : Nat) : Option (List UInt8) :=
  if Text.isHalf n then
    if byteOffset + 0x80 ≤ n ∧ n < byteOffset + 0x100 then some [(n - byteOffset).toUInt8]
    else none
  else some (bytesOf n)

/-- The bytes of a name. -/
def nameBytes? (s : String) : Option (List UInt8) :=
  if s.toList.any Text.isReserved then ((Text.codes s.toList).mapM nameBytesOf?).map List.flatten
  else some s.toUTF8.toList

/-! ## Reading -/

/-- What follows the first byte of a character. -/
structure Form where
  /-- The bits that the first byte gives. -/
  bits : Nat
  /-- The bytes that follow. -/
  more : Nat
  /-- The least and the greatest second byte. -/
  least : Nat := 0x80
  greatest : Nat := 0xbf

/-- The form of a character of several bytes, by its first byte. -/
def formOf? (byte : Nat) : Option Form :=
  if byte < 0xc2 then none
  else if byte < 0xe0 then some { bits := byte - 0xc0, more := 1 }
  else if byte = 0xe0 then some { bits := 0, more := 2, least := 0xa0 }
  else if byte = 0xed then some { bits := 13, more := 2, greatest := 0x9f }
  else if byte < 0xf0 then some { bits := byte - 0xe0, more := 2 }
  else if byte = 0xf0 then some { bits := 0, more := 3, least := 0x90 }
  else if byte < 0xf4 then some { bits := byte - 0xf0, more := 3 }
  else if byte = 0xf4 then some { bits := 4, more := 3, greatest := 0x8f }
  else none

/-- Why the bytes behind a first byte make no character. -/
inductive Break where
  /-- A byte that cannot continue the character, with the number of bytes before it. -/
  | bad (length : Nat)
  /-- The end, with the number of bytes before it. -/
  | over (length : Nat)

/-- The number of a character, from the bits so far and the bytes that follow; `length` bytes came
before these. -/
def continued (least greatest length : Nat) :
    (more bits : Nat) → List UInt8 → Except Break (Nat × List UInt8)
  | 0, bits, bytes => .ok (bits, bytes)
  | _ + 1, _, [] => .error (.over length)
  | more + 1, bits, b :: bytes =>
    if least ≤ b.toNat ∧ b.toNat ≤ greatest then
      continued 0x80 0xbf (length + 1) more (64 * bits + (b.toNat - 0x80)) bytes
    else .error (.bad length)

/-- The character at the beginning of bytes, of which the first has the given position: its number,
the number of its bytes, and the bytes behind it. -/
def character (position : Nat) (b : UInt8) (rest : List UInt8) :
    Except Utf8Fault (Nat × Nat × List UInt8) :=
  let byte := b.toNat
  if byte < 0x80 then .ok (byte, 1, rest)
  else
    match formOf? byte with
    | none => .error (.badStart byte position)
    | some form =>
      match continued form.least form.greatest 1 form.more form.bits rest with
      | .error (.bad length) => .error (.badContinuation byte position length)
      | .error (.over length) => .error (.truncated byte position length)
      | .ok (n, others) => .ok (n, 1 + form.more, others)

/-- The code points of bytes, of which the first has the given position. -/
def codes : (fuel position : Nat) → List UInt8 → Except Utf8Fault (List Nat)
  | _, _, [] => .ok []
  | 0, _, _ => .ok []
  | fuel + 1, position, b :: rest => do
    let (n, length, others) ← character position b rest
    return n :: (← codes fuel (position + length) others)

/-- The text of bytes. -/
def decode (bytes : List UInt8) : Except Utf8Fault String := do
  return String.ofList (Text.ofCodes (← codes bytes.length 0 bytes))

/-- The code points of the bytes of a name. -/
def nameCodes : (fuel : Nat) → List UInt8 → List Nat
  | _, [] => []
  | 0, _ => []
  | fuel + 1, b :: rest =>
    match character 0 b rest with
    | .ok (n, _, others) => n :: nameCodes fuel others
    | .error _ => (byteOffset + b.toNat) :: nameCodes fuel rest

/-- The name that a text makes as the name of a file: halves whose bytes make a character give
way to it. -/
def fileName (s : String) : String :=
  if s.toList.any Text.keepsHalf then
    match nameBytes? s with
    | some bytes => String.ofList (Text.ofCodes (nameCodes bytes.length bytes))
    | none => s
  else s

/-- A text with a line feed for every carriage return, and for one before a line feed. -/
def unifyBreaks : List Char → List Char
  | '\r' :: '\n' :: rest => '\n' :: unifyBreaks rest
  | '\r' :: rest => '\n' :: unifyBreaks rest
  | c :: rest => c :: unifyBreaks rest
  | [] => []

/-- The text of a file that holds the given bytes. -/
def fileText (bytes : List UInt8) : Except Utf8Fault String := do
  return String.ofList (unifyBreaks (← decode bytes).toList)

end ClientGen.Utf8
