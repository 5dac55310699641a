import ClientGen.Text.Blank

/-!
# Literals of the target languages

String literals of TypeScript and Rust, and the template literal that builds a request path. Each
escapes the characters that would end the literal; a line feed is written as an escape, and all
other characters stand for themselves.
-/

namespace ClientGen.Source

/-- How a character is written between quotes `q`. -/
def quotedChar (q c : Char) : List Char :=
  if c = '\\' then ['\\', '\\']
  else if c = q then ['\\', q]
  else if c = '\n' then ['\\', 'n']
  else [c]

/-- Text between quotes `q`. -/
def quotedBy (q : Char) (s : String) : String :=
  String.ofList (q :: (s.toList.flatMap (quotedChar q) ++ [q]))

/-- A string literal in single quotes. -/
def singleQuoted : String → String := quotedBy '\''

/-- A string literal in double quotes. -/
def doubleQuoted : String → String := quotedBy '"'

/-! ## Path templates -/

/-- A piece of a path template. -/
inductive PathPiece where
  | text (cs : List Char)
  | placeholder (name : List Char)
deriving DecidableEq, Repr

/-- The name in braces at the beginning of `cs`, which stands behind an opening brace, and what
follows the closing one. A name is not empty and holds no braces. -/
def placeholder? (cs : List Char) : Option (List Char × List Char) :=
  let name := cs.takeWhile fun c => c != '\x7b' && c != '\x7d'
  match name, cs.drop name.length with
  | _ :: _, '\x7d' :: rest => some (name, rest)
  | _, _ => none

/-- Puts a character in front of a list of pieces. -/
def consText (c : Char) : List PathPiece → List PathPiece
  | .text cs :: pieces => .text (c :: cs) :: pieces
  | pieces => .text [c] :: pieces

/-- The pieces of a path template, left to right, in at most `fuel` steps. -/
def pathPiecesWithin : (fuel : Nat) → List Char → List PathPiece
  | 0, _ => []
  | _ + 1, [] => []
  | fuel + 1, c :: rest =>
    match if c = '\x7b' then placeholder? rest else none with
    | some (name, after) => .placeholder name :: pathPiecesWithin fuel after
    | none => consText c (pathPiecesWithin fuel rest)

/-- The pieces of a path template, left to right. -/
def pathPieces (path : String) : List PathPiece :=
  pathPiecesWithin path.toList.length path.toList

/-- The placeholder names of a path template, left to right. -/
def placeholderNames (path : String) : List String :=
  (pathPieces path).filterMap fun
    | .placeholder name => some (String.ofList name)
    | .text _ => none

/-- Text inside a template literal. A dollar sign is escaped where a brace follows it. -/
def escapeTemplate : List Char → List Char
  | [] => []
  | c :: rest =>
    if c = '\\' ∨ c = '\x60' then '\\' :: c :: escapeTemplate rest
    else if c = '$' ∧ rest.head? = some '\x7b' then '\\' :: c :: escapeTemplate rest
    else c :: escapeTemplate rest

/-- A placeholder as it is written in a template literal: the encoded value of its identifier, or
the placeholder itself where it has none. -/
def placeholderText (identifiers : List (String × String)) (name : List Char) : List Char :=
  match identifiers.lookup (String.ofList name) with
  | some identifier =>
    "$\x7bencodeURIComponent(String(".toList ++ identifier.toList ++ "))\x7d".toList
  | none => escapeTemplate ('\x7b' :: name ++ ['\x7d'])

/-- The template literal of a path. `identifiers` pairs wire names with identifiers; of two pairs
for one name the later counts. -/
def pathTemplate (path : String) (identifiers : List (String × String)) : String :=
  let chars := (pathPieces path).flatMap fun
    | .text cs => escapeTemplate cs
    | .placeholder name => placeholderText identifiers.reverse name
  String.ofList ('\x60' :: (chars ++ ['\x60']))

end ClientGen.Source
