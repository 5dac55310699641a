import ClientGen.Decl.Layout
import ClientGen.Proofs.Layout.Page
import ClientGen.Proofs.Text.Length

/-!
# The line that opens a declaration

Below its comment, the text of a declaration begins with the words that say what it is and what it
is called, whatever the width (`Declaration.beginsLine_text`). What follows them may go to another
line, which takes away spaces behind these words but nothing of them (`lays_beginsLine`).
-/

namespace ClientGen

open Layout (Page Lays lays_nil lays_line place)
open Name (isIdentifierRest)
open Text (EndsLine)

/-! ## Lines that begin with words -/

/-- Whether a line among characters begins with words, and no more of a word behind them. -/
def BeginsLine (words cs : List Char) : Prop :=
  ∃ before c after, cs = before ++ (words ++ c :: after) ∧ EndsLine before ∧
    isIdentifierRest c = false

namespace BeginsLine

variable {words cs : List Char}

theorem append_right (h : BeginsLine words cs) (more : List Char) :
    BeginsLine words (cs ++ more) := by
  obtain ⟨before, c, after, rfl, begins, stops⟩ := h
  exact ⟨before, c, after ++ more, by simp, begins, stops⟩

theorem append_left (h : BeginsLine words cs) {front : List Char} (ended : EndsLine front) :
    BeginsLine words (front ++ cs) := by
  obtain ⟨before, c, after, rfl, begins, stops⟩ := h
  exact ⟨front ++ before, c, after, by simp, ended.append begins, stops⟩

/-- Ending the line of a page takes away nothing of words that do not end in a space. -/
theorem endLine {p : Page} {front : List Char} {last : Char} (tight : last ≠ ' ')
    (h : BeginsLine (front ++ [last]) p.chars) (indent : Int) :
    BeginsLine (front ++ [last]) (p.endLine indent).chars := by
  obtain ⟨before, c, after, chars, begins, stops⟩ := h
  obtain ⟨kept, k, split, ended⟩ := p.exists_chars_endLine indent
  have whole : kept ++ List.replicate k ' ' = before ++ front ++ [last] ++ c :: after := by
    rw [← split, chars]
    simp
  have stays : before ++ front ++ [last] <+: kept ++ List.replicate k ' ' := by
    rw [whole]
    exact List.prefix_append _ _
  obtain ⟨more, rfl⟩ := Page.prefix_of_prefix_append_spaces tight stays
  rw [ended]
  cases more with
  | nil => exact ⟨before, '\n', List.replicate indent.toNat ' ', by simp, begins, by decide⟩
  | cons d rest =>
    rw [List.append_assoc] at whole
    obtain ⟨rfl, -⟩ := List.cons.inj (List.append_cancel_left whole)
    exact ⟨before, d, rest ++ '\n' :: List.replicate indent.toNat ' ', by simp, begins, stops⟩

end BeginsLine

/-- Laying out more takes away nothing of words that a line begins with. -/
theorem lays_beginsLine {front : List Char} {last : Char} (tight : last ≠ ' ') (d : Doc) :
    Lays (fun p (_ : Unit → Unit) => BeginsLine (front ++ [last]) p.chars)
      (fun p _ => BeginsLine (front ++ [last]) p.chars) d id := by
  induction d with
  | nil => exact lays_nil
  | text s =>
    intro width rest indent mode p _ h
    rw [place, Page.chars_write]
    exact h.append_right s.toList
  | line flat =>
    refine lays_line (fun p _ h => ?_) fun p _ indent h => h.endLine tight indent
    rw [Page.chars_write]
    exact h.append_right flat.toList
  | hardLine => exact fun _ _ indent _ p _ h => h.endLine tight indent
  | nest n d ih => exact ih.nest n
  | append a b iha ihb => exact iha.append ihb
  | group d ih => exact ih.group
  | ifBroken b f ihb ihf => exact ihb.ifBroken ihf

/-! ## Layouts that open with words -/

/-- Whether a layout opens with words below its comment. -/
inductive Doc.OpensWith (words : List Char) : Doc → Prop
  | head {documentation : Option String} {s : String} {c : Char} {after : List Char}
      (text : s.toList = words ++ c :: after) (stops : isIdentifierRest c = false) :
    OpensWith words (commentBefore documentation ++ .text s)
  | append {d : Doc} (h : OpensWith words d) (more : Doc) : OpensWith words (d ++ more)

/-- A comment ends its last line. -/
theorem endsLine_commentBefore (documentation : Option String) (width : Int)
    (rest : List Layout.Frame) (mode : Layout.Mode) :
    EndsLine (place width rest 0 mode (commentBefore documentation) ⟨[], 0⟩).chars := by
  have shape : commentBefore documentation = .nil ∨
      ∃ d, commentBefore documentation = d ++ Doc.hardLine := by
    unfold commentBefore
    split
    · exact .inl rfl
    · exact .inr ⟨_, rfl⟩
  rcases shape with none | ⟨d, ended⟩
  · rw [none]
    exact .inl rfl
  · obtain ⟨kept, k, -, below⟩ :=
      (place width (⟨0, mode, .hardLine⟩ :: rest) 0 mode d ⟨[], 0⟩).exists_chars_endLine 0
    rw [ended]
    exact .inr ⟨kept, below⟩

theorem Doc.OpensWith.beginsLine {front : List Char} {last : Char} (tight : last ≠ ' ') {d : Doc}
    (h : d.OpensWith (front ++ [last])) (width : Int) (rest : List Layout.Frame)
    (mode : Layout.Mode) :
    BeginsLine (front ++ [last]) (place width rest 0 mode d ⟨[], 0⟩).chars := by
  induction h generalizing rest with
  | @head documentation s c after text stops =>
    have laid : place width rest 0 mode (commentBefore documentation ++ .text s) ⟨[], 0⟩ =
        (place width (⟨0, mode, .text s⟩ :: rest) 0 mode (commentBefore documentation)
          ⟨[], 0⟩).write s := rfl
    rw [laid, Page.chars_write, text]
    exact ⟨_, c, after, rfl, endsLine_commentBefore documentation width _ mode, stops⟩
  | append _ more ih => exact lays_beginsLine tight more width rest 0 mode _ id (ih _)

/-! ## Declarations -/

namespace Declaration

/-- The word for what a declaration is. -/
def keyword : Declaration → String
  | interface _ => "interface"
  | typeAlias _ => "type"
  | enumeration _ => "enum"

/-- Whether a declaration has no type parameters, extends nothing and is no constant enumeration. -/
def IsBare : Declaration → Prop
  | interface i => i.generics = [] ∧ i.bases = []
  | typeAlias a => a.generics = []
  | enumeration e => e.isConst = false

/-- The words that export a declaration. -/
def opening (d : Declaration) : String := "export " ++ d.keyword ++ " " ++ d.name

theorem opensWith_opening {d : Declaration} (bare : d.IsBare) :
    d.doc.OpensWith d.opening.toList := by
  cases d with
  | interface i =>
    obtain ⟨generics, bases⟩ := bare
    have text : (i.head ++ " ").toList = (opening (interface i)).toList ++ ' ' :: [] := by
      unfold Interface.head
      simp [genericsText, generics, bases, opening, keyword, name]
    exact .append (.head text (by decide)) _
  | typeAlias a =>
    have text : ("export type " ++ a.name ++ genericsText a.generics ++ " = ").toList =
        (opening (typeAlias a)).toList ++ ' ' :: ['=', ' '] := by
      simp [genericsText, show a.generics = [] from bare, opening, keyword, name]
    exact .append (.append (.head text (by decide)) _) _
  | enumeration e =>
    have text : ((if e.isConst then "export const enum " else "export enum ") ++ e.name ++ " ").toList
        = (opening (enumeration e)).toList ++ ' ' :: [] := by
      simp [show e.isConst = false from bare, opening, keyword, name]
    exact .append (.head text (by decide)) _

/-- **The text of a declaration** has a line that begins with its opening words. -/
theorem beginsLine_text {d : Declaration} (bare : d.IsBare) {front : List Char} {last : Char}
    (named : d.name.toList = front ++ [last]) (tight : last ≠ ' ') (width : Int) :
    BeginsLine d.opening.toList (d.text width).toList := by
  have split : d.opening.toList = ("export " ++ d.keyword ++ " ").toList ++ front ++ [last] := by
    rw [opening, String.toList_append, named, List.append_assoc]
  have opens := opensWith_opening bare
  rw [split] at opens ⊢
  exact opens.beginsLine tight width [] .broken

end Declaration

end ClientGen
