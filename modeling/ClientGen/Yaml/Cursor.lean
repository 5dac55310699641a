import ClientGen.Text.CodePoint

/-!
# Places in a YAML text

Reading goes from character to character and knows the column of each: indentation has meaning in
YAML. Line breaks of every system have become line feeds before reading begins; the two separators
of Unicode also end lines, but stay what they are. No half of a surrogate pair may stand in a YAML
text, so that all code points are characters.
-/

namespace ClientGen.Yaml

/-- Separators of lines and of paragraphs. -/
def isSeparator (c : Char) : Bool := c = '\u2028' || c = '\u2029'

/-- Characters that end a line. -/
def isBreak (c : Char) : Bool := c = '\n' || isSeparator c

/-- Characters that leave room within a line. -/
def isGap (c : Char) : Bool := c = ' ' || c = '\t'

/-- Whether a line ends here: with the text, or with a line break. -/
def endsLine : Option Char → Bool
  | none => true
  | some c => isBreak c

/-- Whether a word ends here: with the line, or with a gap. -/
def endsWord : Option Char → Bool
  | none => true
  | some c => isBreak c || isGap c

/-- Whether a part of a line that tabs do not end is over here. -/
def endsPart : Option Char → Bool
  | none => true
  | some c => isBreak c || c = ' '

/-- The mark that may stand at the beginning of a text. It takes up no room. -/
def byteOrderMark : Char := '\uFEFF'

/-- Whether a code point may stand in a YAML text. A half of a surrogate pair may not. -/
def isPrintable (n : Nat) : Bool :=
  n == 9 || n == 10 || n == 13 || (0x20 ≤ n && n ≤ 0x7e) || n == 0x85
    || (0xa0 ≤ n && n < 0xd800) || (0xe000 ≤ n && n ≤ 0xfffd) || 0x10000 ≤ n

/-- A text with a line feed for every line break that is no separator. -/
def uniformBreaks : List Char → List Char
  | '\r' :: '\n' :: rest => '\n' :: uniformBreaks rest
  | c :: rest => (if c = '\r' || c = '\u0085' then '\n' else c) :: uniformBreaks rest
  | [] => []

/-- A place in a text: what follows, and where the place is. -/
structure Cursor where
  rest : List Char
  /-- The number of characters that follow. Readers are bounded by it. -/
  left : Nat := rest.length
  line : Nat := 0
  column : Nat := 0

namespace Cursor

/-- The place after the next character. -/
def next (c : Cursor) : Cursor :=
  match c.rest with
  | [] => c
  | ch :: rest =>
    if isBreak ch then ⟨rest, c.left - 1, c.line + 1, 0⟩
    else ⟨rest, c.left - 1, c.line, if ch = byteOrderMark then c.column else c.column + 1⟩

/-- The place `n` characters on. -/
def skip : Nat → Cursor → Cursor
  | 0, c => c
  | n + 1, c => skip n c.next

/-- The next character. -/
def peek (c : Cursor) : Option Char := c.rest.head?

/-- The character `n` places on. -/
def peekAt (c : Cursor) (n : Nat) : Option Char := c.rest[n]?

/-- The characters up to the first that does not satisfy `p`, and the place behind them. -/
def span (c : Cursor) (p : Char → Bool) : List Char × Cursor :=
  let taken := c.rest.takeWhile p
  (taken, c.skip taken.length)

/-- The place behind characters that satisfy `p`. -/
def skipWhile (c : Cursor) (p : Char → Bool) : Cursor := (c.span p).2

/-- The place behind spaces and a comment, which may stand at the end of a line. -/
def skipComment (c : Cursor) : Cursor :=
  let c := c.skipWhile (· = ' ')
  if c.peek = some '#' then c.skipWhile (fun ch => !isBreak ch) else c

/-- Whether a marker of three given characters stands here as a word. -/
def hasMarker (c : Cursor) (ch : Char) : Bool :=
  match c.rest with
  | a :: b :: d :: rest => a = ch && b = ch && d = ch && endsWord rest.head?
  | _ => false

/-- Whether a document begins or ends here. -/
def hasDocumentMarker (c : Cursor) : Bool := c.hasMarker '-' || c.hasMarker '.'

end Cursor

end ClientGen.Yaml
