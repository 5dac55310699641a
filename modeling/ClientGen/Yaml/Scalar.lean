import ClientGen.Yaml.Cursor
import ClientGen.Yaml.Fault

/-!
# Scalars in a YAML text

The three ways to write a scalar: plain, between quotes, and as an indented block. Line breaks
inside a plain or quoted scalar are folded: a single one becomes a space, and of several the first
is dropped. A character is kept in a scalar as its code point is in every text. `fuel` bounds the
reading by the length of the text.
-/

namespace ClientGen.Yaml

/-- What a line break and the breaks after it stand for when they are folded. -/
def foldBreaks (first : Char) (others : List Char) : List Char :=
  if first != '\n' then first :: others
  else if others.isEmpty then [' ']
  else others

/-! ## Plain scalars -/

/-- Whether a plain scalar ends before `c`, which `next` follows. -/
def endsPlain (inFlow : Bool) (c : Char) (next : Option Char) : Bool :=
  endsWord (some c)
    || (c = ':' && (endsWord next || (inFlow && next.any fun n => ",[]\x7b\x7d".contains n)))
    || (inFlow && ",?[]\x7b\x7d".contains c)

/-- The characters of a plain scalar up to a gap or its end. -/
def plainRun (inFlow : Bool) : List Char → List Char
  | [] => []
  | c :: rest => if endsPlain inFlow c rest.head? then [] else c :: plainRun inFlow rest

/-- Line breaks and spaces after a line break in a plain scalar; none if a document ends there. -/
def plainBreaks : (fuel : Nat) → Cursor → Option (List Char) × Cursor
  | 0, c => (some [], c)
  | fuel + 1, c =>
    match c.peek with
    | some ' ' => plainBreaks fuel c.next
    | some ch =>
      if isBreak ch then
        if c.next.hasDocumentMarker then (none, c.next)
        else
          let (others, next) := plainBreaks fuel c.next
          (others.map (ch :: ·), next)
      else (some [], c)
    | none => (some [], c)

/-- What the gap after a run of a plain scalar stands for, the place behind it, and whether it goes
over the end of a line. Nothing is left of a gap before the end of a document. -/
def plainGap (fuel : Nat) (c : Cursor) : List Char × Cursor × Bool :=
  let (spaces, c) := c.span (· = ' ')
  match c.peek with
  | some ch =>
    if isBreak ch then
      if c.next.hasDocumentMarker then ([], c.next, true)
      else
        match plainBreaks fuel c.next with
        | (none, next) => ([], next, true)
        | (some others, next) => (foldBreaks ch others, next, true)
    else (spaces, c, false)
  | none => (spaces, c, false)

/-- Reads the runs of a plain scalar that has to stand at or right of column `indent`. `gap` is what
stands between what was read and the cursor. Says at the end whether a line end was passed. -/
def plainRuns (inFlow : Bool) (indent : Int) :
    (fuel : Nat) → (overLine : Bool) → (gap : List Char) → Cursor → List Char × Cursor × Bool
  | 0, overLine, _, c => ([], c, overLine)
  | fuel + 1, overLine, gap, c =>
    let run := plainRun inFlow c.rest
    if run.isEmpty then ([], c, overLine)
    else
      let (newGap, next, newOverLine) := plainGap fuel (c.skip run.length)
      if newGap.isEmpty || next.peek = some '#' || (!inFlow && next.column < indent) then
        (gap ++ run, next, newOverLine)
      else
        let (others, last, overLine) := plainRuns inFlow indent fuel newOverLine newGap next
        (gap ++ run ++ others, last, overLine)

/-- A plain scalar. -/
def plainScalar (inFlow : Bool) (indent : Int) (c : Cursor) : String × Cursor × Bool :=
  let (text, next, overLine) := plainRuns inFlow indent (c.left + 1) false [] c
  (String.ofList (Text.ofChars text), next, overLine)

/-! ## Quoted scalars -/

/-- The characters that stand for others after a backslash. -/
def escapes : List (Char × Char) := [
  ('0', '\x00'), ('a', '\x07'), ('b', '\x08'), ('t', '\t'), ('\t', '\t'), ('n', '\n'),
  ('v', '\x0b'), ('f', '\x0c'), ('r', '\r'), ('e', '\x1b'), (' ', ' '), ('"', '"'), ('\\', '\\'),
  ('/', '/'), ('N', '\u0085'), ('_', '\u00a0'), ('L', '\u2028'), ('P', '\u2029')]

/-- How many hexadecimal digits follow a letter after a backslash. -/
def escapeLengths : List (Char × Nat) := [('x', 2), ('u', 4), ('U', 8)]

/-- The value of a hexadecimal digit. -/
def hexValue? (c : Char) : Option Nat :=
  if c.isDigit then some (c.toNat - 48)
  else if 'a' ≤ c ∧ c ≤ 'f' then some (c.toNat - 87)
  else if 'A' ≤ c ∧ c ≤ 'F' then some (c.toNat - 55)
  else none

/-- The value of hexadecimal digits. -/
def hexNumber? (cs : List Char) : Option Nat :=
  cs.foldlM (fun n c => (hexValue? c).map (16 * n + ·)) 0

/-- What the code point of an escape is kept as. -/
def escapedCode (n : Nat) : Except Fault (List Char) :=
  if 0x80000000 ≤ n then .error .unusable
  else if 0x110000 ≤ n then .error (.badScalar .characterRange)
  else .ok (Text.charsOf n)

/-- Line breaks in a quoted scalar, with the gaps between them dropped. -/
def quotedBreaks : (fuel : Nat) → Cursor → Except Fault (List Char × Cursor)
  | 0, _ => .error .broken
  | fuel + 1, c =>
    if c.hasDocumentMarker then .error .broken
    else
      let c := c.skipWhile isGap
      match c.peek with
      | some ch =>
        if isBreak ch then do
          let (others, next) ← quotedBreaks fuel c.next
          return (ch :: others, next)
        else .ok ([], c)
      | none => .ok ([], c)

/-- What a gap in a quoted scalar stands for. -/
def quotedGap (fuel : Nat) (c : Cursor) : Except Fault (List Char × Cursor) :=
  let (gap, c) := c.span isGap
  match c.peek with
  | none => .error .broken
  | some ch =>
    if isBreak ch then do
      let (others, next) ← quotedBreaks fuel c.next
      return (foldBreaks ch others, next)
    else .ok (gap, c)

/-- What an escape stands for; the cursor stands behind the backslash. -/
def quotedEscape (fuel : Nat) (c : Cursor) : Except Fault (List Char × Cursor) :=
  match c.peek with
  | none => .error .broken
  | some ch =>
    match escapes.lookup ch, escapeLengths.lookup ch with
    | some d, _ => .ok ([d], c.next)
    | none, some length => do
      let digits := c.next.rest.take length
      match hexNumber? digits with
      | none => throw .broken
      | some n =>
        if digits.length < length then throw .broken
        return (← escapedCode n, c.next.skip length)
    | none, none => if isBreak ch then quotedBreaks fuel c.next else .error .broken

/-- Reads a scalar up to the quote that ends it. Escapes have meaning between double quotes, and
between single quotes a quote is written twice. -/
def quotedRest (double : Bool) : (fuel : Nat) → Cursor → Except Fault (List Char × Cursor)
  | 0, _ => .error .broken
  | fuel + 1, c =>
    let onward (text : List Char) (next : Cursor) : Except Fault (List Char × Cursor) := do
      let (others, last) ← quotedRest double fuel next
      return (text ++ others, last)
    match c.rest with
    | [] => .error .broken
    | ch :: rest =>
      if isGap ch || isBreak ch then do
        let (text, next) ← quotedGap fuel c
        onward text next
      else if double && ch = '"' then .ok ([], c.next)
      else if double && ch = '\\' then do
        let (text, next) ← quotedEscape fuel c.next
        onward text next
      else if !double && ch = '\'' then
        if rest.head? = some '\'' then onward ['\''] (c.skip 2) else .ok ([], c.next)
      else onward (Text.charsOf ch.toNat) c.next

/-- A quoted scalar; the cursor stands at the opening quote. -/
def quotedScalar (double : Bool) (c : Cursor) : Except Fault (String × Cursor) := do
  let (text, next) ← quotedRest double (c.left + 1) c.next
  return (String.ofList text, next)

/-! ## Block scalars -/

/-- What is done with the line breaks at the end of a block. -/
inductive Chomping where
  | strip
  | clip
  | keep
deriving DecidableEq, Repr

/-- How a block is chomped, by its sign. -/
def chompingOf? (c : Option Char) : Option Chomping :=
  if c = some '+' then some .keep else if c = some '-' then some .strip else none

/-- A digit that tells how far a block is indented, with the place behind it. Zero is refused. -/
def indentDigit (c : Cursor) : Except Fault (Option Nat × Cursor) :=
  match c.peek with
  | some ch =>
    if ch = '0' then .error .broken
    else if ch.isDigit then .ok (some (ch.toNat - 48), c.next)
    else .ok (none, c)
  | none => .ok (none, c)

/-- The sign and the digit after the indicator of a block, in either order. -/
def blockHeader (c : Cursor) : Except Fault (Chomping × Option Nat × Cursor) :=
  match chompingOf? c.peek with
  | some chomping => do
    let (digit, next) ← indentDigit c.next
    return (chomping, digit, next)
  | none => do
    let (digit, next) ← indentDigit c
    match digit, chompingOf? next.peek with
    | some _, some chomping => return (chomping, digit, next.next)
    | _, _ => return (.clip, digit, next)

/-- The rest of a line, which may hold a comment only. The cursor is put on the next line. -/
def finishLine (c : Cursor) : Except Fault Cursor :=
  let c := c.skipComment
  if endsLine c.peek then .ok c.next else .error .broken

/-- The empty lines before a block whose indentation has to be found, and the column of the
furthest place they reach. -/
def leadingLines : (fuel : Nat) → Cursor → List Char × Nat × Cursor
  | 0, c => ([], 0, c)
  | fuel + 1, c =>
    match c.peek with
    | some ' ' =>
      let (breaks, furthest, next) := leadingLines fuel c.next
      (breaks, max furthest c.next.column, next)
    | some ch =>
      if isBreak ch then
        let (breaks, furthest, next) := leadingLines fuel c.next
        (ch :: breaks, furthest, next)
      else ([], 0, c)
    | none => ([], 0, c)

/-- The place behind spaces, but no further right than column `indent`. -/
def skipIndent (indent : Nat) (c : Cursor) : Cursor :=
  c.skip (min (c.rest.takeWhile (· = ' ')).length (indent - c.column))

/-- The empty lines here in a block that is indented to column `indent`. -/
def blockBreaks (indent : Nat) : (fuel : Nat) → Cursor → List Char × Cursor
  | 0, c => ([], c)
  | fuel + 1, c =>
    let c := skipIndent indent c
    match c.peek with
    | some ch =>
      if isBreak ch then
        let (others, next) := blockBreaks indent fuel c.next
        (ch :: others, next)
      else ([], c)
    | none => ([], c)

/-- What was read of a block: its text, the break that ends it, and the empty lines after that. -/
structure BlockLines where
  text : List Char
  lastBreak : List Char
  breaks : List Char
  cursor : Cursor

/-- Whether a line begins with other than a gap. -/
def beginsFlush (c : Cursor) : Bool := !c.peek.any isGap

/-- What a line break between two lines of a block stands for. -/
def blockJoint (folded : Bool) (lineBreak breaks : List Char) (flush nextFlush : Bool) :
    List Char :=
  if folded && lineBreak = ['\n'] && flush && nextFlush then
    if breaks.isEmpty then [' '] else []
  else lineBreak

/-- Reads the lines of a block, with the empty lines before each. -/
def blockLines (folded : Bool) (indent : Nat) :
    (fuel : Nat) → (breaks : List Char) → Cursor → BlockLines
  | 0, breaks, c => ⟨[], [], breaks, c⟩
  | fuel + 1, breaks, c =>
    if c.column = indent && !c.rest.isEmpty then
      let (line, lineEnd) := c.span fun ch => !isBreak ch
      let lineBreak := lineEnd.peek.toList
      let (newBreaks, next) := blockBreaks indent fuel lineEnd.next
      if next.column = indent && !next.rest.isEmpty then
        let joint := blockJoint folded lineBreak newBreaks (beginsFlush c) (beginsFlush next)
        let others := blockLines folded indent fuel newBreaks next
        { others with text := breaks ++ line ++ joint ++ others.text }
      else ⟨breaks ++ line, lineBreak, newBreaks, next⟩
    else ⟨[], [], breaks, c⟩

/-- A block scalar below a collection that is indented to column `parent`; the cursor stands at the
indicator. -/
def blockScalar (folded : Bool) (parent : Int) (c : Cursor) : Except Fault (String × Cursor) := do
  let (chomping, digit, next) ← blockHeader c.next
  if !endsPart next.peek then throw .broken
  let start ← finishLine next
  let fuel := start.left + 1
  let least := max (parent + 1).toNat 1
  let lines := match digit with
    | none =>
      let (breaks, furthest, first) := leadingLines fuel start
      blockLines folded (max least furthest) fuel breaks first
    | some n =>
      let indent := least + n - 1
      let (breaks, first) := blockBreaks indent fuel start
      blockLines folded indent fuel breaks first
  let ending := match chomping with
    | .strip => []
    | .clip => lines.lastBreak
    | .keep => lines.lastBreak ++ lines.breaks
  return (String.ofList (Text.ofChars (lines.text ++ ending)), lines.cursor)

end ClientGen.Yaml
