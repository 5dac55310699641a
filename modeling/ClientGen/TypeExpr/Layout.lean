import ClientGen.Layout.Render
import ClientGen.Name.Identifier
import ClientGen.TypeExpr.Basic

/-!
# Types as source text

The layout of a type. A function type is put in parentheses inside a union or an intersection, and
so is a union inside an intersection. An object type with complex content has one property a line
at every width.
-/

namespace ClientGen.TypeExpr

/-- How many columns the content of braces is indented. -/
def indentWidth : Nat := 2

/-- Members in braces, one a line if `spread` is set or they do not fit on one line. -/
def memberBlock (members : List Doc) (spread : Bool) : Doc :=
  if members.isEmpty then .text "\x7b\x7d"
  else if spread then
    .text "\x7b"
      ++ .nest indentWidth (Doc.concat (members.map fun m => .hardLine ++ m ++ .text ";"))
      ++ .hardLine ++ .text "\x7d"
  else
    .group (.text "\x7b"
      ++ .nest indentWidth (Doc.softSpace
        ++ Doc.intersperse (.text ";" ++ Doc.softSpace) members ++ .ifBroken (.text ";") .nil)
      ++ Doc.softSpace ++ .text "\x7d")

/-- The words before the type of a property. -/
def memberHead (name : String) (isOptional isReadonly : Bool) : String :=
  (if isReadonly then "readonly " else "") ++ Name.propertyKey name
    ++ (if isOptional then "?: " else ": ")

/-- The words before the value type of an index signature. -/
def indexHead (key : String) : String := s!"[key: {key}]: "

/-- Whether a type as a member of a union needs parentheses. -/
def wrapsInUnion : TypeExpr → Bool
  | function _ _ => true
  | _ => false

/-- Whether a type as a member of an intersection needs parentheses. -/
def wrapsInInter : TypeExpr → Bool
  | function _ _ => true
  | union _ => true
  | _ => false

/-- A document in parentheses, if they are needed. -/
def parenthesized (needed : Bool) (d : Doc) : Doc :=
  if needed then .text "(" ++ d ++ .text ")" else d

mutual

/-- The layout of a type. -/
def doc : TypeExpr → Doc
  | primitive p => .text p.keyword
  | ref name [] => .text name
  | ref name (a :: as) =>
    .text (name ++ "<") ++ Doc.intersperse (.text ", ") (doc a :: docs as) ++ .text ">"
  | generic name => .text name
  | literal text => .text text
  | array element => .text "Array<" ++ doc element ++ .text ">"
  | tuple elements => .text "[" ++ Doc.intersperse (.text ", ") (docs elements) ++ .text "]"
  | union members => Doc.intersperse (.text " | ") (unionDocs members)
  | inter members => Doc.intersperse (.text " & ") (interDocs members)
  | function arguments result =>
    .text "(" ++ Doc.intersperse (.text ", ") (argumentDocs arguments) ++ .text ") => "
      ++ resultDoc result
  | object members => memberBlock (memberDocs members) (isComplex (object members))
  | index key value => .text "\x7b " ++ (.text (indexHead key) ++ doc value) ++ .text " \x7d"

/-- The layouts of types. -/
def docs : List TypeExpr → List Doc
  | [] => []
  | t :: rest => doc t :: docs rest

/-- The layouts of the members of a union. -/
def unionDocs : List TypeExpr → List Doc
  | [] => []
  | t :: rest => parenthesized t.wrapsInUnion (doc t) :: unionDocs rest

/-- The layouts of the members of an intersection. -/
def interDocs : List TypeExpr → List Doc
  | [] => []
  | t :: rest => parenthesized t.wrapsInInter (doc t) :: interDocs rest

/-- The layouts of parameters. -/
def argumentDocs : List (Argument TypeExpr) → List Doc
  | [] => []
  | ⟨name, t, o⟩ :: rest =>
    (.text name ++ .text (if o then "?: " else ": ") ++ doc t) :: argumentDocs rest

/-- The layouts of properties. -/
def memberDocs : List (Member TypeExpr) → List Doc
  | [] => []
  | ⟨name, t, o, r⟩ :: rest => (.text (memberHead name o r) ++ doc t) :: memberDocs rest

/-- The layout of a result type, which is `void` where there is none. -/
def resultDoc : Option TypeExpr → Doc
  | none => .text "void"
  | some t => doc t

end

/-- The text of a type on lines of at most `width` columns. -/
def text (t : TypeExpr) (width : Int) : String := Layout.render t.doc width

end ClientGen.TypeExpr
