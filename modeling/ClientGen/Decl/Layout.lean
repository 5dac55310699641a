import ClientGen.Decl.Basic
import ClientGen.Source.Comment
import ClientGen.TypeExpr.Layout

/-!
# Declarations as source text

Short declarations stand on one line where they fit. An interface with more than two members, with
documented or complex ones, and an enumeration with more than two members have one a line at every
width. The list of parameters of a method is broken only where it does not fit.
-/

namespace ClientGen

open TypeExpr (indentWidth)

/-- How many members a declaration may have on one line. -/
def inlineMembers : Nat := 2

/-- A comment with a line end after it; blank documentation has none. -/
def commentBefore (documentation : Option String) : Doc :=
  match Source.blockComment (documentation.getD "") 0 with
  | "" => .nil
  | comment => Doc.intersperse .hardLine ((Text.lines comment).map Doc.text) ++ .hardLine

/-- Type parameters after a name. -/
def genericsText (generics : List String) : String :=
  if generics.isEmpty then "" else "<" ++ ", ".intercalate generics ++ ">"

/-- A list with commas between bracket marks, one item a line where it does not fit. -/
def bracketed (opening closing : String) (edge : Doc) (items : List Doc) : Doc :=
  .group (.text opening
    ++ .nest indentWidth (edge ++ Doc.intersperse (.text "," ++ Doc.softSpace) items
      ++ .ifBroken (.text ",") .nil)
    ++ edge ++ .text closing)

/-! ## Interfaces, aliases and enumerations -/

/-- The layout of a property without the semicolon. -/
def Property.doc (p : Property) : Doc :=
  .text (TypeExpr.memberHead p.name p.isOptional p.isReadonly) ++ p.type.doc

/-- The layout of an index signature without the semicolon. -/
def IndexSignature.doc (i : IndexSignature) : Doc :=
  .text (TypeExpr.indexHead i.key) ++ i.value.doc

/-- The head of an interface. -/
def Interface.head (i : Interface) : String :=
  "export interface " ++ i.name ++ genericsText i.generics
    ++ if i.bases.isEmpty then "" else " extends " ++ ", ".intercalate i.bases

/-- Whether an interface has one member a line at every width. -/
def Interface.isSpread (i : Interface) : Bool :=
  inlineMembers < i.memberCount
    || i.properties.any (fun p => (p.documentation.getD "") != "")
    || i.properties.any (·.type.isComplex)
    || i.index.any (·.value.isComplex)

/-- The layout of an interface. -/
def Interface.doc (i : Interface) : Doc :=
  let properties := i.properties.map fun p => commentBefore p.documentation ++ p.doc
  let members := properties ++ (i.index.map IndexSignature.doc).toList
  commentBefore i.documentation ++ .text (i.head ++ " ")
    ++ TypeExpr.memberBlock members i.isSpread

/-- The layout of an alias. -/
def Alias.doc (a : Alias) : Doc :=
  commentBefore a.documentation
    ++ .text ("export type " ++ a.name ++ genericsText a.generics ++ " = ")
    ++ a.type.doc ++ .text ";"

/-- The text of a member of an enumeration. -/
def Variant.text (v : Variant) : String :=
  match v.value with
  | some value => v.name ++ " = " ++ value
  | none => v.name

/-- The layout of an enumeration. -/
def Enumeration.doc (e : Enumeration) : Doc :=
  let variants := e.variants.map fun v => Doc.text v.text
  let body :=
    if variants.isEmpty then .text "\x7b\x7d"
    else if inlineMembers < variants.length then
      .text "\x7b"
        ++ .nest indentWidth (Doc.concat (variants.map fun v => .hardLine ++ v ++ .text ","))
        ++ .hardLine ++ .text "\x7d"
    else bracketed "\x7b" "\x7d" Doc.softSpace variants
  commentBefore e.documentation
    ++ .text ((if e.isConst then "export const enum " else "export enum ") ++ e.name ++ " ")
    ++ body

/-- The layout of a declaration. -/
def Declaration.doc : Declaration → Doc
  | interface i => i.doc
  | typeAlias a => a.doc
  | enumeration e => e.doc

/-- The text of a declaration. -/
def Declaration.text (d : Declaration) (width : Int) : String := Layout.render d.doc width

/-! ## Imports and members of classes -/

/-- The text of an imported name; inside an import of types alone no name is marked as one. -/
def ImportSpecifier.text (s : ImportSpecifier) (allTypes : Bool) : String :=
  (if s.isTypeOnly && !allTypes then "type " else "") ++ s.name
    ++ match s.localName with
      | some a => if a.isEmpty then "" else " as " ++ a
      | none => ""

/-- The layout of an import. -/
def Import.doc (i : Import) : Doc :=
  .text (if i.isTypeOnly then "import type " else "import ")
    ++ bracketed "\x7b" "\x7d" Doc.softSpace
      (i.specifiers.map fun s => Doc.text (s.text i.isTypeOnly))
    ++ .text (" from '" ++ i.module ++ "';")

/-- The text of an import. -/
def Import.text (i : Import) (width : Int) : String := Layout.render i.doc width

/-- The text of a property as a member. -/
def Property.text (p : Property) (width : Int) : String :=
  Layout.render (p.doc ++ .text ";") width

/-- Words with a space after each. -/
def modifiersText (words : List String) : String := String.join (words.map (· ++ " "))

/-- The word for a visibility; the usual one is not written. -/
def visibilityWords (visibility : String) : List String :=
  if visibility == "public" then [] else [visibility]

/-- The layout of a property of a class. -/
def ClassProperty.doc (p : ClassProperty) : Doc :=
  let modifiers := visibilityWords p.visibility ++ (if p.isStatic then ["static"] else [])
    ++ if p.isReadonly then ["readonly"] else []
  .text (modifiersText modifiers ++ p.name ++ if p.isOptional then "?: " else ": ")
    ++ p.type.doc
    ++ .text (((p.initializer.map (" = " ++ ·)).getD "") ++ ";")

/-- The text of a property of a class. -/
def ClassProperty.text (p : ClassProperty) (width : Int) : String := Layout.render p.doc width

/-- The layouts of parameters. A parameter that may be missing and stands before a required one is
written as a required one that may be undefined. -/
def parameterDocs : List MethodParameter → List Doc
  | [] => []
  | p :: rest =>
    let d :=
      if p.isOptional && rest.any (!·.isOptional) then
        .text (p.name ++ ": ") ++ (TypeExpr.unionOf [p.type, .undefined]).doc
      else
        .text (p.name ++ if p.isOptional then "?: " else ": ") ++ p.type.doc
          ++ .text ((p.default.map (" = " ++ ·)).getD "")
    d :: parameterDocs rest

/-- The layout of a signature. -/
def Signature.doc (s : Signature) : Doc :=
  let modifiers := visibilityWords s.visibility ++ (if s.isStatic then ["static"] else [])
    ++ if s.isAsync then ["async"] else []
  let parameters :=
    if s.parameters.isEmpty then .text "()"
    else bracketed "(" ")" Doc.softNothing (parameterDocs s.parameters)
  let result : Doc :=
    match s.result with
    | some t => .text ": " ++ t.doc
    | none => .text ""
  .text (modifiersText modifiers ++ s.name) ++ parameters ++ result

/-- The text of a signature. -/
def Signature.text (s : Signature) (width : Int) : String := Layout.render s.doc width

end ClientGen
