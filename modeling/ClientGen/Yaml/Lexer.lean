import ClientGen.Yaml.Scalar
import ClientGen.Yaml.Token

/-!
# From text to tokens

The lexer keeps the columns of the block collections that are open, and closes those that a line
begins to the left of. A key without a mark of its own is only known by the colon behind it: the
lexer remembers where such a key may have begun, and puts the tokens for it there when the colon
comes. The colon has to come on the same line, within 1024 characters. The lexer goes from token to
token, so that nothing is read before it is asked for.
-/

namespace ClientGen.Yaml

/-- A place where a key may have begun. -/
structure KeyPlace where
  /-- The number of tokens before the key. -/
  position : Nat
  /-- Whether nothing but a key can stand there. -/
  isRequired : Bool
  /-- The number of characters from here to the end of the text. -/
  left : Nat
  line : Nat
  column : Nat

/-- The state of the lexer. -/
structure Lexer where
  cursor : Cursor
  tokens : Array Token := #[]
  /-- The flow collections that are open. -/
  flowLevel : Nat := 0
  /-- Where a key may have begun, on the levels of flow collections that are open. -/
  places : List (Nat × KeyPlace) := []
  /-- The column of the innermost block collection; before the first column if none is open. -/
  indent : Int := -1
  /-- The columns of the block collections around it. -/
  outer : List Int := []
  /-- Whether a key may begin at the next token. -/
  allowsKey : Bool := true
  /-- Whether the whole text was read. -/
  isDone : Bool := false

namespace Lexer

/-- A step of the lexer. -/
abbrev Step := Except Fault Lexer

/-- The lexer with another token. -/
def push (l : Lexer) (t : Token) : Lexer := { l with tokens := l.tokens.push t }

/-- The lexer `n` characters on. -/
def skip (l : Lexer) (n : Nat) : Lexer := { l with cursor := l.cursor.skip n }

/-- Whether a flow collection is open. -/
def inFlow (l : Lexer) : Bool := l.flowLevel != 0

/-! ## Keys -/

/-- The longest key that needs no mark. -/
def longestKey : Nat := 1024

/-- Whether it is too late for a key to have begun at a place. -/
def isStale (l : Lexer) (p : KeyPlace) : Bool :=
  p.line != l.cursor.line || p.left - l.cursor.left > longestKey

/-- Forgets the places where no key can have begun any more. -/
def dropStale (l : Lexer) : Step :=
  if l.places.any fun p => l.isStale p.2 && p.2.isRequired then .error .broken
  else .ok { l with places := l.places.filter fun p => !l.isStale p.2 }

/-- Forgets the place on the present level. -/
def forgetPlace (l : Lexer) : Step :=
  if (l.places.lookup l.flowLevel).any (·.isRequired) then .error .broken
  else .ok { l with places := l.places.filter (·.1 != l.flowLevel) }

/-- Remembers that a key may begin here. -/
def savePlace (l : Lexer) : Step :=
  if !l.allowsKey then .ok l
  else do
    let place : KeyPlace := {
      position := l.tokens.size
      isRequired := !l.inFlow && l.indent == l.cursor.column
      left := l.cursor.left
      line := l.cursor.line
      column := l.cursor.column }
    let l ← l.forgetPlace
    return { l with places := (l.flowLevel, place) :: l.places }

/-! ## Indentation -/

/-- Closes the block collections to the right of a column. -/
def unwind (column : Int) (l : Lexer) : Lexer :=
  if l.inFlow then l
  else
    let closed := (l.indent :: l.outer).takeWhile (column < ·)
    match (l.indent :: l.outer).drop closed.length with
    | indent :: outer =>
      { l with indent, outer, tokens := closed.foldl (fun ts _ => ts.push .blockEnd) l.tokens }
    | [] => l

/-- Opens a block collection at a column, unless one is open there. Its token goes to a position
among the tokens. -/
def openBlock (l : Lexer) (column : Nat) (position : Nat) (t : Token) : Lexer :=
  if l.indent < column then
    { l with
      indent := column
      outer := l.indent :: l.outer
      tokens := l.tokens.insertIdxIfInBounds position t }
  else l

/-! ## Tokens -/

/-- Begins or ends a document, or reads a directive: all block collections end. -/
def atMargin (l : Lexer) : Step := do
  let l ← (l.unwind (-1)).forgetPlace
  return { l with allowsKey := false }

/-- Opens a flow collection. -/
def openFlow (l : Lexer) (t : Token) : Step := do
  let l ← l.savePlace
  return { (l.push t).skip 1 with flowLevel := l.flowLevel + 1, allowsKey := true }

/-- Closes a flow collection. -/
def closeFlow (l : Lexer) (t : Token) : Step := do
  if !l.inFlow then throw .broken
  let l ← l.forgetPlace
  return { (l.push t).skip 1 with flowLevel := l.flowLevel - 1, allowsKey := false }

/-- The comma between entries of a flow collection. -/
def flowEntry (l : Lexer) : Step := do
  let l ← l.forgetPlace
  return { (l.push .flowEntry).skip 1 with allowsKey := true }

/-- Opens a block collection here, where a mark of the collection stands. -/
def openHere (l : Lexer) (t : Token) : Step :=
  if l.inFlow then .ok l
  else if !l.allowsKey then .error .broken
  else .ok (l.openBlock l.cursor.column l.tokens.size t)

/-- The dash before an item of a block sequence. -/
def blockEntry (l : Lexer) : Step := do
  let l ← l.openHere .blockSequenceStart
  let l ← { l with allowsKey := true }.forgetPlace
  return (l.push .blockEntry).skip 1

/-- The mark of a key. -/
def markedKey (l : Lexer) : Step := do
  let l ← l.openHere .blockMappingStart
  let l ← { l with allowsKey := !l.inFlow }.forgetPlace
  return (l.push .key).skip 1

/-- The colon before a value. The key before it gets its token now, if it has no mark. -/
def valueMark (l : Lexer) : Step :=
  match l.places.lookup l.flowLevel with
  | some place =>
    let l := { l with
      places := l.places.filter (·.1 != l.flowLevel)
      tokens := l.tokens.insertIdxIfInBounds place.position .key
      allowsKey := false }
    let l := if l.inFlow then l else l.openBlock place.column place.position .blockMappingStart
    .ok ((l.push .value).skip 1)
  | none => do
    let l ← l.openHere .blockMappingStart
    let l ← { l with allowsKey := !l.inFlow }.forgetPlace
    return (l.push .value).skip 1

/-- A token that may begin a key, read by `read`. -/
def word (l : Lexer) (read : Cursor → Except Fault (Token × Cursor)) : Step := do
  let l ← l.savePlace
  let (t, cursor) ← read l.cursor
  return { l.push t with cursor, allowsKey := false }

/-- A block scalar. -/
def block (folded : Bool) (l : Lexer) : Step := do
  let l ← { l with allowsKey := true }.forgetPlace
  let (text, cursor) ← blockScalar folded l.indent l.cursor
  return { l.push (.scalar text false) with cursor }

/-- A quoted scalar. -/
def quoted (double : Bool) (l : Lexer) : Step :=
  l.word fun c => do
    let (text, next) ← quotedScalar double c
    return (.scalar text false, next)

/-- A plain scalar. Behind the end of a line a key may begin. -/
def plain (l : Lexer) : Step := do
  let l ← l.savePlace
  let (text, cursor, overLine) := plainScalar l.inFlow (l.indent + 1) l.cursor
  return { l.push (.scalar text true) with cursor, allowsKey := overLine }

/-- Whether a plain scalar may begin with `c`, which `next` follows. -/
def beginsPlain (inFlow : Bool) (c : Char) (next : Option Char) : Bool :=
  (!endsWord (some c) && !"-?:,[]\x7b\x7d#&*!|>'\"%@\x60".contains c)
    || (!endsWord next && (c = '-' || (!inFlow && (c = '?' || c = ':'))))

/-! ## The whole text -/

/-- The lexer behind spaces, comments and line ends. A key may begin on a new line. -/
def skipRoom : (fuel : Nat) → Lexer → Lexer
  | 0, l => l
  | fuel + 1, l =>
    let cursor := l.cursor.skipComment
    if cursor.peek.any isBreak then
      skipRoom fuel { l with cursor := cursor.next, allowsKey := l.allowsKey || !l.inFlow }
    else { l with cursor }

/-- Reads the token that begins with `c`. -/
def readToken (l : Lexer) (c : Char) : Step :=
  let next := l.cursor.peekAt 1
  let atStart := l.cursor.column = 0
  if c = '%' && atStart then do
    let l ← l.atMargin
    let (d, cursor) ← readDirective l.cursor
    return { l.push (.directive d) with cursor }
  else if atStart && l.cursor.hasMarker '-' then
    return ((← l.atMargin).push .documentStart).skip 3
  else if atStart && l.cursor.hasMarker '.' then
    return ((← l.atMargin).push .documentEnd).skip 3
  else if c = '[' then l.openFlow .flowSequenceStart
  else if c = '\x7b' then l.openFlow .flowMappingStart
  else if c = ']' then l.closeFlow .flowSequenceEnd
  else if c = '\x7d' then l.closeFlow .flowMappingEnd
  else if c = ',' then l.flowEntry
  else if c = '-' && endsWord next then l.blockEntry
  else if c = '?' && (l.inFlow || endsWord next) then l.markedKey
  else if c = ':' && (l.inFlow || endsWord next) then l.valueMark
  else if c = '*' then l.word fun c => do
    let (name, next) ← readAnchor c
    return (.aliasOf name, next)
  else if c = '&' then l.word fun c => do
    let (name, next) ← readAnchor c
    return (.anchor name, next)
  else if c = '!' then l.word readTag
  else if c = '|' && !l.inFlow then l.block false
  else if c = '>' && !l.inFlow then l.block true
  else if c = '\'' then l.quoted false
  else if c = '"' then l.quoted true
  else if beginsPlain l.inFlow c next then l.plain
  else .error .broken

/-- Reads on behind the last token: to the end of the next one, or to the end of the text. -/
def fetch (l : Lexer) : Step := do
  let l ← (skipRoom (l.cursor.left + 1) l).dropStale
  let l := l.unwind l.cursor.column
  match l.cursor.peek with
  | none => return { ← l.atMargin with places := [], isDone := true }
  | some c => l.readToken c

/-- Whether a token is the last word on what stands at its position: no key may begin there. -/
def isSettled (l : Lexer) (position : Nat) : Bool :=
  position < l.tokens.size && !l.places.any (·.2.position == position)

/-- Reads on until the token at a position is settled. -/
def settle (position : Nat) : (fuel : Nat) → Lexer → Step
  | 0, l => .ok l
  | fuel + 1, l =>
    if l.isDone then .ok l
    else if l.tokens.size ≤ position then do settle position fuel (← l.fetch)
    else do
      let l ← l.dropStale
      if l.isSettled position then return l else settle position fuel (← l.fetch)

/-- The lexer at the beginning of a text. -/
def ofText (text : String) : Step :=
  let codes := Text.codes text.toList
  if !codes.all isPrintable then .error .broken
  else
    let start : Cursor := { rest := uniformBreaks (codes.map Char.ofNat) }
    .ok { cursor := if start.peek = some byteOrderMark then start.next else start }

end Lexer

end ClientGen.Yaml
