import ClientGen.Text.Blank

/-!
# Comments and banners

Documentation becomes block comments in TypeScript and line comments in Rust; every generated file
can open with a banner in the comment style of its language.
-/

namespace ClientGen.Source

/-- Breaks every end of a block comment inside text by a backslash. -/
def breakCommentEnds : List Char → List Char
  | '*' :: '/' :: rest => '*' :: '\\' :: '/' :: breakCommentEnds rest
  | c :: rest => c :: breakCommentEnds rest
  | [] => []

/-- The lines of a documentation text, without blank space at the ends of the text and at the end
of each line, and without any comment end. -/
def commentLines (documentation : String) : List String :=
  (Text.lines (Text.trim documentation)).map fun line =>
    String.ofList (breakCommentEnds (Text.trimEnd line).toList)

/-- A block comment, on one line if the text has one line; blank text has no comment. -/
def blockComment (documentation : String) (indent : Nat) : String :=
  if Text.allBlank documentation then ""
  else
    let pad := Text.spaces indent
    match commentLines documentation with
    | [line] => pad ++ "/** " ++ line ++ " */"
    | lines =>
      let body := lines.map fun line => Text.trimEnd (pad ++ " * " ++ line)
      pad ++ "/**\n" ++ Text.unlines body ++ "\n" ++ pad ++ " */"

/-- Whether a line is an item of a list. -/
def isBullet (line : String) : Bool :=
  ["* ", "- ", "+ "].any fun mark => Text.startsWith mark line

/-- Line comments for documentation; items of lists are indented. -/
def lineComments (documentation : String) (indent : Nat) : String :=
  if documentation.isEmpty then ""
  else
    Text.unlines ((Text.lines (Text.trim documentation)).map fun raw =>
      let line := Text.trim raw
      let mark := if isBullet line then "///   " else "/// "
      Text.trimEnd (Text.spaces indent ++ mark ++ line))

/-- Text with `width` spaces before each line that is not blank; blank lines become empty. The
first line is left alone unless `first` is set. -/
def indentLines (text : String) (width : Nat) (first : Bool) : String :=
  match Text.lines text with
  | [] => ""
  | line :: rest =>
    let indented (padded : Bool) (l : String) : String :=
      if Text.allBlank l then "" else if padded then Text.spaces width ++ l else l
    Text.unlines (indented first line :: rest.map (indented true))

/-! ## Banners -/

/-- The notice at the top of every generated file. -/
def notice : List String := [
  "DO NOT EDIT - This file is automatically generated.",
  "Any manual changes will be overwritten on the next generation.",
  "To make changes, modify the source code and regenerate this file."]

/-- The comment that opens a generated TypeScript module. -/
def shortNotice : String := "// DO NOT EDIT - This file is automatically generated"

/-- How comments are marked. -/
inductive CommentStyle where
  | slashes
  | hash
  | markup
deriving DecidableEq, Repr

/-- The mark before each comment line. -/
def CommentStyle.mark : CommentStyle → String
  | slashes => "//"
  | hash => "#"
  | markup => ""

/-- The banner of a file: the notice, and below it the title and version where there is a title.
Markup has the notice alone. -/
def banner (title version : String) : CommentStyle → String
  | .markup => Text.unlines (notice.map fun line => "<!-- " ++ line ++ " -->")
  | style =>
    let mark := style.mark
    let heading :=
      if title.isEmpty then []
      else if version.isEmpty then [mark, mark ++ " " ++ title]
      else [mark, Text.trimEnd (mark ++ " " ++ title ++ " " ++ version)]
    Text.unlines (notice.map (mark ++ " " ++ ·) ++ heading)

end ClientGen.Source
