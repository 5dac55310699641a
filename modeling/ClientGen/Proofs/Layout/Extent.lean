import ClientGen.Layout.Render
import ClientGen.Proofs.Text.Length
import Mathlib.Data.List.TakeWhile

/-!
# What measuring measures

The characters of a document all of whose groups are laid out in one mode (`Doc.spelled`), and what
`measure` says about them: the columns up to the first line end, and what that line end means in
the mode (`measure_eq`). A document fits flat before broken frames exactly if it spells no line end
and its characters fit, with those of the frames up to their first line end (`fitsFlat_iff`).

Documents are plain here (`Doc.IsPlain`): line ends are written as such and not inside of texts, and
nothing is indented to the left.
-/

namespace ClientGen

open Layout (Mode Extent Ending Frame measure measureFrames fitsFlat)

namespace Doc

/-- Whether a text has no line end and characters that are kept for code points. -/
def IsPiece (s : String) : Prop := Text.Kept s.toList ∧ '\n' ∉ s.toList

/-- Whether no text of a document holds a line end, and no part of it is indented to the left. -/
def IsPlain : Doc → Prop
  | nil => True
  | text s => IsPiece s
  | line flat => IsPiece flat
  | hardLine => True
  | nest amount d => 0 ≤ amount ∧ d.IsPlain
  | append a b => a.IsPlain ∧ b.IsPlain
  | group d => d.IsPlain
  | ifBroken b f => b.IsPlain ∧ f.IsPlain

/-- The characters of a document all of whose groups are laid out in one mode, without any
indentation. -/
def spelled (mode : Mode) : Doc → List Char
  | nil => []
  | text s => s.toList
  | line flat => match mode with
    | .flat => flat.toList
    | .broken => ['\n']
  | hardLine => ['\n']
  | nest _ d => d.spelled mode
  | append a b => a.spelled mode ++ b.spelled mode
  | group d => d.spelled mode
  | ifBroken b f => match mode with
    | .flat => f.spelled mode
    | .broken => b.spelled mode

/-- The text of a document that is laid out flat; a hard line end in it remains one. -/
def flatText (d : Doc) : String := String.ofList (d.spelled .flat)

theorem kept_spelled {d : Doc} (plain : d.IsPlain) (mode : Mode) : Text.Kept (d.spelled mode) := by
  have lineEnd : Text.Kept ['\n'] := ⟨[10], by decide, by decide⟩
  induction d with
  | nil => exact Text.kept_nil
  | text s => exact plain.1
  | line flat =>
    cases mode with
    | flat => exact plain.1
    | broken => exact lineEnd
  | hardLine => exact lineEnd
  | nest amount d ih => exact ih plain.2
  | append a b iha ihb => exact (iha plain.1).append (ihb plain.2)
  | group d ih => exact ih plain
  | ifBroken b f ihb ihf =>
    cases mode with
    | flat => exact ihf plain.2
    | broken => exact ihb plain.1

end Doc

namespace Layout

/-- The characters of frames whose groups are all laid out broken. -/
def brokenChars (frames : List Frame) : List Char := frames.flatMap fun f => f.doc.spelled .broken

theorem brokenChars_cons (f : Frame) (rest : List Frame) :
    brokenChars (f :: rest) = f.doc.spelled .broken ++ brokenChars rest := List.flatMap_cons ..

/-- The text of frames up to their first line end, where all of their groups are broken. -/
def textToLineEnd (frames : List Frame) : String :=
  String.ofList ((brokenChars frames).takeWhile (· != '\n'))

/-! ### Extents of characters -/

/-- What a line end does in a mode. -/
def lineEnding : Mode → Ending
  | .flat => .impossible
  | .broken => .lineEnd

/-- The stretch of characters up to the first line end among them. -/
def extentOf (mode : Mode) (cs : List Char) : Extent :=
  ⟨(Text.codes (cs.takeWhile (· != '\n'))).length,
    if '\n' ∈ cs then lineEnding mode else .through⟩

theorem takeWhile_of_not_mem {cs : List Char} (noBreak : '\n' ∉ cs) :
    cs.takeWhile (· != '\n') = cs :=
  List.takeWhile_eq_self_iff.2 fun _ mem => bne_iff_ne.2 fun same => noBreak (same ▸ mem)

theorem takeWhile_append_of_mem {cs : List Char} (ends : '\n' ∈ cs) (ds : List Char) :
    (cs ++ ds).takeWhile (· != '\n') = cs.takeWhile (· != '\n') := by
  induction cs with
  | nil => nomatch ends
  | cons c rest ih =>
    rw [List.cons_append, List.takeWhile_cons, List.takeWhile_cons]
    rcases List.mem_cons.1 ends with rfl | later
    · rfl
    · rw [ih later]

/-- Characters without a line end go through, whatever the mode. -/
theorem extentOf_of_not_mem (mode : Mode) {cs : List Char} (noBreak : '\n' ∉ cs) :
    extentOf mode cs = ⟨(Text.codes cs).length, .through⟩ := by
  rw [extentOf, takeWhile_of_not_mem noBreak, if_neg noBreak]

/-- A stretch of characters and the stretch of those behind them. -/
theorem extentOf_append (mode : Mode) {cs : List Char} (kept : Text.Kept cs) (ds : List Char) :
    extentOf mode (cs ++ ds) = (extentOf mode cs).andThen fun _ => extentOf mode ds := by
  by_cases ends : '\n' ∈ cs
  · have stopped : (extentOf mode (cs ++ ds)) = extentOf mode cs := by
      rw [extentOf, extentOf, takeWhile_append_of_mem ends, if_pos ends,
        if_pos (List.mem_append_left ds ends)]
    rw [stopped, Extent.andThen, extentOf, if_pos ends]
    cases mode <;> rfl
  · rw [extentOf_of_not_mem mode ends, Extent.andThen, extentOf, extentOf,
      List.takeWhile_append_of_pos (List.takeWhile_eq_self_iff.1 (takeWhile_of_not_mem ends)),
      Text.codes_append kept, List.length_append]
    simp only [List.mem_append, ends, false_or]

/-! ### What measuring finds -/

/-- Measuring a document finds the stretch of its characters. -/
theorem measure_eq {d : Doc} (plain : d.IsPlain) (mode : Mode) :
    measure mode d = extentOf mode (d.spelled mode) := by
  induction d with
  | nil => rfl
  | text s => exact (extentOf_of_not_mem mode plain.2).symm
  | line flat =>
    cases mode with
    | flat => exact (extentOf_of_not_mem .flat plain.2).symm
    | broken => rfl
  | hardLine => cases mode <;> rfl
  | nest amount d ih => exact ih plain.2
  | append a b iha ihb =>
    rw [measure, iha plain.1, ihb plain.2, Doc.spelled,
      extentOf_append mode (Doc.kept_spelled plain.1 mode)]
  | group d ih => exact ih plain
  | ifBroken b f ihb ihf =>
    cases mode with
    | flat => exact ihf plain.2
    | broken => exact ihb plain.1

/-- Measuring broken frames finds the stretch of their characters. -/
theorem measureFrames_eq {frames : List Frame}
    (plain : ∀ f ∈ frames, f.doc.IsPlain) (broken : ∀ f ∈ frames, f.mode = .broken) :
    measureFrames frames = extentOf .broken (brokenChars frames) := by
  induction frames with
  | nil => rfl
  | cons f rest ih =>
    obtain ⟨plainFirst, plainRest⟩ := List.forall_mem_cons.1 plain
    obtain ⟨brokenFirst, brokenRest⟩ := List.forall_mem_cons.1 broken
    rw [measureFrames, brokenFirst, measure_eq plainFirst, ih plainRest brokenRest,
      brokenChars_cons, extentOf_append .broken (Doc.kept_spelled plainFirst .broken)]

theorem length_flatText (d : Doc) :
    Text.length d.flatText = (Text.codes (d.spelled .flat)).length := by
  rw [Text.length, Doc.flatText, String.toList_ofList]

/-- A document fits flat before broken frames exactly if no line ends in its flat text, and that
text and what follows up to a line end have room. -/
theorem fitsFlat_iff {d : Doc} {rest : List Frame} (plain : d.IsPlain)
    (plainRest : ∀ f ∈ rest, f.doc.IsPlain) (broken : ∀ f ∈ rest, f.mode = .broken) (room : Int) :
    fitsFlat room d rest = true ↔ '\n' ∉ d.flatText.toList ∧
      (Text.length d.flatText : Int) + Text.length (textToLineEnd rest) ≤ room := by
  have following : Text.length (textToLineEnd rest) = (measureFrames rest).columns := by
    rw [measureFrames_eq plainRest broken, Text.length, textToLineEnd, String.toList_ofList]
    rfl
  have goesOn : (measureFrames rest).ending ≠ .impossible := by
    rw [measureFrames_eq plainRest broken, extentOf]
    dsimp only [lineEnding]
    split <;> nofun
  rw [length_flatText, Doc.flatText, String.toList_ofList, following, fitsFlat, measure_eq plain]
  by_cases ends : '\n' ∈ d.spelled .flat
  · have impossible : (extentOf .flat (d.spelled .flat)).ending = .impossible := by
      rw [extentOf, if_pos ends]
      rfl
    simp [Extent.andThen, impossible, ends]
  · rw [extentOf_of_not_mem .flat ends, Extent.andThen]
    simp [ends, goesOn]

end Layout

end ClientGen
