import ClientGen.Text.Blank
import ClientGen.Text.CodePoint

/-!
# Laying out a document

A document is text with places where a line may end. A group is laid out on one line where that
fits, and otherwise ends its lines at all of those places.

`render` goes through a document from left to right. A group that is met in a broken surrounding is
laid out flat exactly if its flat form, with what follows up to the next line end, fits into the
rest of the line; `measure` finds how far that is. Spaces before a line end are taken away from the
piece that was written last.
-/

namespace ClientGen

/-! ## Documents -/

/-- Text with possible line ends. -/
inductive Doc where
  | nil
  | text (s : String)
  /-- A line end in a broken group, and `flat` in a flat one. -/
  | line (flat : String)
  /-- A line end in every group, which therefore cannot be flat. -/
  | hardLine
  /-- Lines that end inside are indented further. -/
  | nest (amount : Int) (inner : Doc)
  | append (first second : Doc)
  | group (inner : Doc)
  | ifBroken (broken flat : Doc)
deriving Repr, DecidableEq, Inhabited

namespace Doc

instance : Append Doc := ⟨append⟩

instance : Coe String Doc := ⟨text⟩

/-- A line end that is a space in a flat group. -/
def softSpace : Doc := line " "

/-- A line end that is nothing in a flat group. -/
def softNothing : Doc := line ""

/-- Documents one after the other. -/
def concat : List Doc → Doc
  | [] => nil
  | d :: ds => d ++ concat ds

/-- Documents with `separator` between neighbours. -/
def intersperse (separator : Doc) : List Doc → Doc
  | [] => nil
  | [d] => d
  | d :: ds => d ++ separator ++ intersperse separator ds

end Doc

end ClientGen

namespace ClientGen.Layout

open ClientGen

/-- Whether the lines of a group end where they may. -/
inductive Mode where
  | flat
  | broken
deriving DecidableEq, Repr

/-- A document still to be laid out, with the indentation and mode of its surroundings. -/
structure Frame where
  indent : Int
  mode : Mode
  doc : Doc

/-! ## Measuring -/

/-- What ends a stretch of text. -/
inductive Ending where
  /-- The end of what was measured. -/
  | through
  /-- A line end in broken mode. -/
  | lineEnd
  /-- A hard line end in flat mode. -/
  | impossible
deriving DecidableEq, Repr

/-- The columns up to an ending. -/
structure Extent where
  columns : Nat
  ending : Ending
deriving DecidableEq, Repr

/-- A stretch and, if nothing ended it, the stretch after it. -/
def Extent.andThen (e : Extent) (next : Unit → Extent) : Extent :=
  match e.ending with
  | .through => let n := next (); ⟨e.columns + n.columns, n.ending⟩
  | _ => e

/-- The stretch of a document in a mode; groups inside take the mode of their surroundings. -/
def measure (mode : Mode) : Doc → Extent
  | .nil => ⟨0, .through⟩
  | .text s => ⟨Text.length s, .through⟩
  | .line flat =>
    match mode with
    | .flat => ⟨Text.length flat, .through⟩
    | .broken => ⟨0, .lineEnd⟩
  | .hardLine =>
    match mode with
    | .flat => ⟨0, .impossible⟩
    | .broken => ⟨0, .lineEnd⟩
  | .nest _ d => measure mode d
  | .append a b => (measure mode a).andThen fun _ => measure mode b
  | .group d => measure mode d
  | .ifBroken b f =>
    match mode with
    | .flat => measure mode f
    | .broken => measure mode b

/-- The stretch of frames one after the other. -/
def measureFrames : List Frame → Extent
  | [] => ⟨0, .through⟩
  | f :: rest => (measure f.mode f.doc).andThen fun _ => measureFrames rest

/-- Whether a document can be laid out flat before `rest` with `room` columns left. -/
def fitsFlat (room : Int) (d : Doc) (rest : List Frame) : Bool :=
  let e := (measure .flat d).andThen fun _ => measureFrames rest
  e.ending != .impossible && (e.columns : Int) ≤ room

/-! ## Writing -/

/-- The pieces written so far, last first, and the column after them. -/
structure Page where
  pieces : List String
  column : Int

namespace Page

/-- Writes a piece of text. -/
def write (p : Page) (s : String) : Page := ⟨s :: p.pieces, p.column + Text.length s⟩

/-- Ends the line, taking away the spaces that end its last piece. -/
def endLine (p : Page) (indent : Int) : Page :=
  let trimmed := match p.pieces with
    | [] => []
    | s :: rest => String.ofList (Text.dropEndWhile (· == ' ') s.toList) :: rest
  ⟨("\n" ++ Text.spaces indent.toNat) :: trimmed, indent⟩

/-- The text of the page. -/
def text (p : Page) : String := String.join p.pieces.reverse

end Page

/-- Lays out a document that `rest` follows. -/
def place (width : Int) (rest : List Frame) (indent : Int) (mode : Mode) : Doc → Page → Page
  | .nil, p => p
  | .text s, p => p.write s
  | .line flat, p =>
    match mode with
    | .flat => p.write flat
    | .broken => p.endLine indent
  | .hardLine, p => p.endLine indent
  | .nest n d, p => place width rest (indent + n) mode d p
  | .append a b, p =>
    place width rest indent mode b (place width (⟨indent, mode, b⟩ :: rest) indent mode a p)
  | .group d, p =>
    match mode with
    | .flat => place width rest indent .flat d p
    | .broken =>
      let mode := if fitsFlat (width - p.column) d rest then Mode.flat else .broken
      place width rest indent mode d p
  | .ifBroken b f, p =>
    match mode with
    | .flat => place width rest indent mode f p
    | .broken => place width rest indent mode b p

/-- The text of a document on lines of at most `width` columns where it can be broken so. -/
def render (d : Doc) (width : Int) : String := (place width [] 0 .broken d ⟨[], 0⟩).text

end ClientGen.Layout
