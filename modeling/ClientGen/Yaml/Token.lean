import ClientGen.Yaml.Cursor
import ClientGen.Yaml.Fault

/-!
# Tokens of a YAML text

The marks that structure a text, and the words that are read as one token: names of anchors, tags
and directives. Indentation has become tokens of its own, which open and close block collections.
-/

namespace ClientGen.Yaml

/-- What a directive tells. -/
inductive Directive where
  | version (major minor : Nat)
  /-- A handle and what it stands for. -/
  | tagHandle (handle meaning : String)
  | unknown
deriving DecidableEq, Repr

/-- A token. -/
inductive Token where
  | directive (d : Directive)
  | documentStart
  | documentEnd
  | blockSequenceStart
  | blockMappingStart
  | blockEnd
  | flowSequenceStart
  | flowSequenceEnd
  | flowMappingStart
  | flowMappingEnd
  | blockEntry
  | flowEntry
  | key
  | value
  | aliasOf (name : String)
  | anchor (name : String)
  /-- A tag: a handle, if it has one, and the rest of it. -/
  | tag (handle : Option String) (suffix : String)
  | scalar (text : String) (isPlain : Bool)
deriving DecidableEq, Repr

/-! ## Names -/

/-- Characters of names. -/
def isNameChar (c : Char) : Bool := c.isAlphanum || c = '-' || c = '_'

/-- A name that is not empty. -/
def readName (c : Cursor) : Except Fault (String × Cursor) :=
  let (name, next) := c.span isNameChar
  if name.isEmpty then .error .broken else .ok (String.ofList name, next)

/-- The name of an anchor; the cursor stands at the sign before it. -/
def readAnchor (c : Cursor) : Except Fault (String × Cursor) := do
  let (name, next) ← readName c.next
  if endsWord next.peek || next.peek.any (fun ch => "?:,]\x7d%@\x60".contains ch) then
    return (name, next)
  else throw .broken

/-! ## Tags -/

/-- Characters of tags, apart from the sign of an escape. -/
def isTagChar (c : Char) : Bool :=
  c.isAlphanum || "-;/?:@&=+$,_.!~*'()[]".contains c

/-- The value of a hexadecimal digit of an escape. -/
def nibble? (c : Char) : Option Nat :=
  if c.isDigit then some (c.toNat - 48)
  else if 'a' ≤ c ∧ c ≤ 'f' then some (c.toNat - 87)
  else if 'A' ≤ c ∧ c ≤ 'F' then some (c.toNat - 55)
  else none

/-- The bytes of the escapes here. -/
def tagEscapes : (fuel : Nat) → Cursor → Except Fault (List Nat × Cursor)
  | 0, _ => .error .broken
  | fuel + 1, c =>
    match c.rest with
    | '%' :: a :: b :: _ => do
      match nibble? a, nibble? b with
      | some m, some n =>
        let (others, next) ← tagEscapes fuel (c.skip 3)
        return ((16 * m + n) :: others, next)
      | _, _ => throw .broken
    | '%' :: _ => .error .broken
    | _ => .ok ([], c)

/-- The characters of a tag. -/
def tagText : (fuel : Nat) → Cursor → Except Fault (List Char × Cursor)
  | 0, _ => .error .broken
  | fuel + 1, c =>
    match c.peek with
    | some '%' => do
      let (bytes, next) ← tagEscapes fuel c
      let text ← match String.fromUTF8? (ByteArray.mk (bytes.map Nat.toUInt8).toArray) with
        | some s => pure s.toList
        | none => throw .broken
      let (others, last) ← tagText fuel next
      return (text ++ others, last)
    | some ch =>
      if isTagChar ch then do
        let (others, last) ← tagText fuel c.next
        return (ch :: others, last)
      else .ok ([], c)
    | none => .ok ([], c)

/-- A text of tag characters that is not empty. -/
def readTagText (c : Cursor) : Except Fault (String × Cursor) := do
  let (text, next) ← tagText (c.left + 1) c
  if next.left = c.left then throw .broken
  return (String.ofList text, next)

/-- A handle: a name between exclamation marks, or a single one of these. -/
def readHandle (c : Cursor) : Except Fault (String × Cursor) :=
  if c.peek ≠ some '!' then .error .broken
  else if c.peekAt 1 = some ' ' then .ok ("!", c.next)
  else
    let (name, next) := c.next.span isNameChar
    if next.peek = some '!' then .ok ("!" ++ String.ofList name ++ "!", next.next)
    else .error .broken

/-- Whether a tag begins with a handle: another exclamation mark comes before its end. -/
def hasHandle (c : Cursor) : Bool :=
  (c.next.rest.takeWhile fun ch => !endsPart (some ch)).contains '!'

/-- A tag; the cursor stands at the exclamation mark that begins it. -/
def readTag (c : Cursor) : Except Fault (Token × Cursor) := do
  let (token, next) ← match c.peekAt 1 with
    | some '<' => do
      let (text, next) ← readTagText (c.skip 2)
      if next.peek ≠ some '>' then throw .broken
      pure (Token.tag none text, next.next)
    | second =>
      if endsWord second then pure (Token.tag none "!", c.next)
      else do
        let (handle, next) ← if hasHandle c then readHandle c else pure ("!", c.next)
        let (suffix, last) ← readTagText next
        pure (Token.tag (some handle) suffix, last)
  if endsPart next.peek then return (token, next) else throw .broken

/-! ## Directives -/

/-- A number in a directive. -/
def readDirectiveNumber (c : Cursor) : Except Fault (Nat × Cursor) :=
  let (digits, next) := c.span Char.isDigit
  if digits.isEmpty then .error .broken
  else if Text.mostDigits < digits.length then
    .error (.badScalar (.tooManyDigits digits.length))
  else .ok (digits.foldl (fun n d => 10 * n + (d.toNat - 48)) 0, next)

/-- The version that a directive gives. -/
def readVersion (c : Cursor) : Except Fault (Directive × Cursor) := do
  let (major, next) ← readDirectiveNumber (c.skipWhile (· = ' '))
  if next.peek ≠ some '.' then throw .broken
  let (minor, last) ← readDirectiveNumber next.next
  if endsPart last.peek then return (.version major minor, last) else throw .broken

/-- The handle that a directive gives a meaning. -/
def readTagHandle (c : Cursor) : Except Fault (Directive × Cursor) := do
  let (handle, next) ← readHandle (c.skipWhile (· = ' '))
  if next.peek ≠ some ' ' then throw .broken
  let (meaning, last) ← readTagText (next.skipWhile (· = ' '))
  if endsPart last.peek then return (.tagHandle handle meaning, last) else throw .broken

/-- A directive; the cursor stands at the sign that begins it, and is put on the next line. -/
def readDirective (c : Cursor) : Except Fault (Directive × Cursor) := do
  let (name, next) ← readName c.next
  if !endsPart next.peek then throw .broken
  let (directive, last) ←
    if name = "YAML" then readVersion next
    else if name = "TAG" then readTagHandle next
    else pure (.unknown, next.skipWhile fun ch => !isBreak ch)
  let last := last.skipComment
  if endsLine last.peek then return (directive, last.next) else throw .broken

end ClientGen.Yaml
