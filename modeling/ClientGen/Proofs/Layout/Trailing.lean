import ClientGen.Proofs.Layout.Page
import ClientGen.Proofs.Layout.Steps
import ClientGen.Proofs.Text.Length
import Mathlib.Data.List.Basic
import Mathlib.Data.List.Induction

/-!
# Spaces at the end of lines

Where a line ends, spaces are taken away from the piece that was written last, and from no piece
before it. So a space is left exactly where that piece has nothing but spaces and the pieces before
it end in one (`Page.LeavesSpace`, `Page.exists_ended_endLine`).

**Which lines end in a space** (`render_tight_iff`): those that a run ends where its page leaves a
space. A document none of whose texts consists of spaces has no such line, but an empty text behind
one that ends in a space is enough (`render_leaves_space`).
-/

namespace ClientGen.Text

/-- Characters without any that is cut at go on with the last piece. -/
theorem splitWhere_append_of_forall {p : Char → Bool} {cs ds : List Char} {ls : List (List Char)}
    {line : List Char} (noBreak : ∀ c ∈ ds, p c = false) (pieces : splitWhere p cs = ls ++ [line]) :
    splitWhere p (cs ++ ds) = ls ++ [line ++ ds] := by
  induction cs generalizing ls line with
  | nil =>
    rw [splitWhere, List.singleton_eq_append_iff] at pieces
    rcases pieces with ⟨rfl, same⟩ | ⟨-, none⟩
    · obtain rfl := List.singleton_inj.1 same
      exact splitWhere_of_forall noBreak
    · cases none
  | cons c rest ih =>
    rw [List.cons_append, splitWhere]
    rw [splitWhere] at pieces
    by_cases sep : p c = true
    · rw [if_pos sep, List.cons_eq_append_iff] at pieces
      rw [if_pos sep]
      rcases pieces with ⟨-, whole⟩ | ⟨others, rfl, behind⟩
      · exact absurd (List.cons.inj whole).2.symm (splitWhere_ne_nil p rest)
      · rw [ih behind]
        rfl
    · rw [if_neg sep] at pieces ⊢
      cases split : splitWhere p rest with
      | nil => exact absurd split (splitWhere_ne_nil p rest)
      | cons piece more =>
        rw [split] at pieces
        dsimp only at pieces
        rw [List.cons_eq_append_iff] at pieces
        rcases pieces with ⟨rfl, whole⟩ | ⟨others, rfl, behind⟩
        · obtain ⟨rfl, rfl⟩ := List.cons.inj whole
          rw [@ih [] piece split]
          rfl
        · rw [@ih (piece :: others) line (by rw [split, behind]; rfl)]
          rfl

/-- The last piece ends as the characters do, if they do not end in one that is cut at. -/
theorem exists_splitWhere_last (p : Char → Bool) (cs : List Char) :
    ∃ ls line, splitWhere p cs = ls ++ [line] ∧
      ∀ c, p c = false → (line.getLast? = some c ↔ cs.getLast? = some c) := by
  induction cs using List.reverseRecOn with
  | nil => exact ⟨[], [], rfl, fun _ _ => Iff.rfl⟩
  | append_singleton cs d ih =>
    by_cases sep : p d = true
    · refine ⟨splitWhere p cs, [], ?_, fun c other => ?_⟩
      · exact splitWhere_append_cons sep cs []
      · rw [List.getLast?_concat]
        constructor
        · nofun
        · rintro ⟨⟩
          rw [sep] at other
          cases other
    · obtain ⟨ls, line, pieces, -⟩ := ih
      have goesOn : ∀ c ∈ [d], p c = false := List.forall_mem_singleton.2 (Bool.eq_false_iff.2 sep)
      refine ⟨ls, line ++ [d], splitWhere_append_of_forall goesOn pieces, fun c _ => ?_⟩
      rw [List.getLast?_concat, List.getLast?_concat]

/-- What is taken away does not stand at the end any more. -/
theorem getLast?_dropEndWhile {p : Char → Bool} {c : Char} (drops : p c = true) (cs : List Char) :
    (dropEndWhile p cs).getLast? ≠ some c := by
  induction cs with
  | nil =>
    intro none
    cases none
  | cons d rest ih =>
    rw [dropEndWhile]
    cases kept : dropEndWhile p rest with
    | nil =>
      dsimp only
      split
      · intro none
        cases none
      · next keeps =>
        rintro ⟨⟩
        exact keeps drops
    | cons e es =>
      rw [kept] at ih
      rwa [List.getLast?_cons_cons]

theorem dropEndWhile_eq_nil_iff {p : Char → Bool} {cs : List Char} :
    dropEndWhile p cs = [] ↔ ∀ c ∈ cs, p c = true := by
  induction cs with
  | nil => simp [dropEndWhile]
  | cons c rest ih =>
    rw [List.forall_mem_cons, ← ih, dropEndWhile]
    cases dropEndWhile p rest <;> simp

end ClientGen.Text

namespace ClientGen.Doc

/-- The texts of a document, those of its line ends among them. -/
def texts : Doc → List String
  | nil | hardLine => []
  | text s | line s => [s]
  | nest _ d | group d => d.texts
  | append a b | ifBroken a b => a.texts ++ b.texts

end ClientGen.Doc

namespace ClientGen.Layout

variable {width : Int}

/-! ### Lines that have ended -/

/-- Whether ending the line would leave a space: the last piece has nothing but spaces, and what
stands before it ends in one. -/
def Page.LeavesSpace (p : Page) : Prop :=
  ∃ s rest, p.pieces = s :: rest ∧ (∀ c ∈ s.toList, c = ' ') ∧
    (rest.reverse.flatMap String.toList).getLast? = some ' '

/-- The lines of a page that have ended. -/
def Page.ended (p : Page) : List (List Char) :=
  (Text.splitWhere (· == '\n') p.chars).dropLast

theorem beq_eq_false_of_not_mem {s : List Char} (noBreak : '\n' ∉ s) :
    ∀ c ∈ s, (c == '\n') = false := by
  intro c mem
  rw [beq_eq_false_iff_ne]
  rintro rfl
  exact noBreak mem

theorem Page.ended_write {s : String} (noBreak : '\n' ∉ s.toList) (p : Page) :
    (p.write s).ended = p.ended := by
  obtain ⟨ls, line, pieces, -⟩ := Text.exists_splitWhere_last (· == '\n') p.chars
  unfold Page.ended
  rw [Page.chars_write, Text.splitWhere_append_of_forall (beq_eq_false_of_not_mem noBreak) pieces,
    pieces, List.dropLast_concat, List.dropLast_concat]

/-- What stands on a page once the spaces at the end of its last piece are gone. -/
def Page.trimmed (p : Page) : List Char :=
  match p.pieces with
  | [] => []
  | s :: rest => rest.reverse.flatMap String.toList ++ Text.dropEndWhile (· == ' ') s.toList

theorem Page.getLast?_trimmed (p : Page) : p.trimmed.getLast? = some ' ' ↔ p.LeavesSpace := by
  obtain ⟨pieces, column⟩ := p
  cases pieces with
  | nil =>
    constructor
    · nofun
    · rintro ⟨s, rest, none, -⟩
      cases none
  | cons s rest =>
    unfold Page.LeavesSpace Page.trimmed
    by_cases spaces : Text.dropEndWhile (· == ' ') s.toList = []
    · have all : ∀ c ∈ s.toList, c = ' ' := fun c mem =>
        beq_iff_eq.1 (Text.dropEndWhile_eq_nil_iff.1 spaces c mem)
      simp only [spaces, List.append_nil]
      constructor
      · exact fun last => ⟨s, rest, rfl, all, last⟩
      · rintro ⟨_, _, ⟨⟩, -, last⟩
        exact last
    · have ink : (rest.reverse.flatMap String.toList ++
          Text.dropEndWhile (· == ' ') s.toList).getLast? ≠ some ' ' := by
        rw [List.getLast?_append_of_ne_nil _ spaces]
        exact Text.getLast?_dropEndWhile rfl s.toList
      constructor
      · exact fun last => absurd last ink
      · rintro ⟨_, _, ⟨⟩, all, -⟩
        exact absurd (Text.dropEndWhile_eq_nil_iff.2 fun c mem => beq_iff_eq.2 (all c mem)) spaces

theorem Page.chars_endLine_trimmed (p : Page) (indent : Int) :
    (p.endLine indent).chars = p.trimmed ++ '\n' :: List.replicate indent.toNat ' ' := by
  obtain ⟨pieces, column⟩ := p
  cases pieces <;> simp [chars_eq, endLine, trimmed]

theorem break_not_mem_replicate_space (n : Nat) : '\n' ∉ List.replicate n ' ' := by
  intro mem
  have same := List.eq_of_mem_replicate mem
  revert same
  decide

/-- Ending a line adds it to those that have ended. It ends in a space if the page leaves one. -/
theorem Page.exists_ended_endLine (p : Page) (indent : Int) :
    ∃ line, (p.endLine indent).ended = p.ended ++ [line] ∧
      (line.getLast? = some ' ' ↔ p.LeavesSpace) := by
  obtain ⟨kept, k, before, after⟩ := p.exists_chars_endLine indent
  obtain rfl : p.trimmed = kept :=
    List.append_cancel_right ((p.chars_endLine_trimmed indent).symm.trans after)
  obtain ⟨ls, line, pieces, last⟩ := Text.exists_splitWhere_last (· == '\n') p.trimmed
  have spaces := fun n => beq_eq_false_of_not_mem (break_not_mem_replicate_space n)
  refine ⟨line, ?_, (last ' ' rfl).trans p.getLast?_trimmed⟩
  have ended : p.ended = ls := by
    rw [Page.ended, before, Text.splitWhere_append_of_forall (spaces k) pieces,
      List.dropLast_concat]
  rw [ended, Page.ended, after, Text.splitWhere_append_cons rfl,
    Text.splitWhere_of_forall (spaces _), List.dropLast_concat, pieces]

/-! ### What a step does to the lines -/

/-- Whether the next frame ends the line. -/
def State.EndsLine (s : State) : Prop :=
  ∃ f rest, s.frames = f :: rest ∧
    (f.doc = .hardLine ∨ f.mode = .broken ∧ ∃ flat, f.doc = .line flat)

/-- Whether all documents that are left are made of certain texts. -/
def State.Within (texts : List String) (s : State) : Prop :=
  ∀ f ∈ s.frames, ∀ text ∈ f.doc.texts, text ∈ texts

variable {texts : List String} {s t : State}

theorem within_start (d : Doc) : (start d).Within d.texts :=
  List.forall_mem_singleton.2 fun _ mem => mem

theorem State.Within.step (h : s.Within texts) (step : Step width s t) : t.Within texts := by
  cases step with
  | nil | text | flatLine | brokenLine | hardLine => exact (List.forall_mem_cons.1 h).2
  | nest | flatGroup | brokenGroup =>
    obtain ⟨inside, others⟩ := List.forall_mem_cons.1 h
    exact List.forall_mem_cons.2 ⟨inside, others⟩
  | append =>
    obtain ⟨inside, others⟩ := List.forall_mem_cons.1 h
    obtain ⟨first, second⟩ := List.forall_mem_append.1 inside
    exact List.forall_mem_cons.2 ⟨first, List.forall_mem_cons.2 ⟨second, others⟩⟩
  | flatChoice =>
    obtain ⟨inside, others⟩ := List.forall_mem_cons.1 h
    exact List.forall_mem_cons.2 ⟨(List.forall_mem_append.1 inside).2, others⟩
  | brokenChoice =>
    obtain ⟨inside, others⟩ := List.forall_mem_cons.1 h
    exact List.forall_mem_cons.2 ⟨(List.forall_mem_append.1 inside).1, others⟩

/-- A step leaves the page as it is, writes a text of the document, or ends the line, which only a
frame does that is a line end. -/
theorem Step.page_cases (h : Step width s t) (within : s.Within texts) :
    (¬s.EndsLine ∧ (t.page = s.page ∨ ∃ text ∈ texts, t.page = s.page.write text)) ∨
      (s.EndsLine ∧ ∃ indent, t.page = s.page.endLine indent) := by
  cases h with
  | nil | nest | append | flatGroup | brokenGroup | flatChoice | brokenChoice =>
    refine .inl ⟨?_, .inl rfl⟩
    rintro ⟨_, _, ⟨⟩, none | ⟨-, flat, none⟩⟩ <;> cases none
  | text =>
    refine .inl ⟨?_, .inr ⟨_, within _ List.mem_cons_self _ List.mem_cons_self, rfl⟩⟩
    rintro ⟨_, _, ⟨⟩, none | ⟨-, flat, none⟩⟩ <;> cases none
  | flatLine =>
    refine .inl ⟨?_, .inr ⟨_, within _ List.mem_cons_self _ List.mem_cons_self, rfl⟩⟩
    rintro ⟨_, _, ⟨⟩, none | ⟨none, -⟩⟩ <;> cases none
  | brokenLine => exact .inr ⟨⟨_, _, rfl, .inr ⟨rfl, _, rfl⟩⟩, _, rfl⟩
  | hardLine => exact .inr ⟨⟨_, _, rfl, .inl rfl⟩, _, rfl⟩

/-! ### What a run does to the lines -/

/-- Whether no line that has ended ends in a space. -/
def Page.IsTight (p : Page) : Prop := ∀ line ∈ p.ended, line.getLast? ≠ some ' '

/-- A step keeps the lines that have ended as they are; a line that it ends has a space at its end
if the page leaves one. -/
theorem Step.isTight_iff (h : Step width s t) (within : s.Within texts)
    (noBreak : ∀ text ∈ texts, '\n' ∉ text.toList) :
    t.page.IsTight ↔ s.page.IsTight ∧ (s.EndsLine → ¬s.page.LeavesSpace) := by
  rcases h.page_cases within with ⟨goesOn, same | ⟨text, mem, written⟩⟩ | ⟨ends, indent, ended⟩
  · rw [same, and_iff_left fun ends => absurd ends goesOn]
  · rw [written, Page.IsTight, Page.ended_write (noBreak text mem), ← Page.IsTight,
      and_iff_left fun ends => absurd ends goesOn]
  · obtain ⟨line, lines, leaves⟩ := s.page.exists_ended_endLine indent
    rw [ended, Page.IsTight, lines, List.forall_mem_append, List.forall_mem_singleton,
      ← Page.IsTight, ← leaves, forall_prop_of_true ends]

theorem reaches_iff_of_step {u : State} (h : Step width s t) :
    Reaches width s u ↔ u = s ∨ Reaches width t u := by
  constructor
  · intro run
    rcases Relation.ReflTransGen.cases_head run with same | ⟨t', step, run⟩
    · exact .inl same.symm
    · rw [step.deterministic h] at run
      exact .inr run
  · rintro (rfl | run)
    · exact .refl
    · exact .head h run

/-- The lines that a run has ended in the end. -/
theorem isTight_iff_of_reaches {p : Page} (noBreak : ∀ text ∈ texts, '\n' ∉ text.toList)
    (run : Reaches width s ⟨[], p⟩) (within : s.Within texts) :
    p.IsTight ↔ s.page.IsTight ∧
      ∀ t, Reaches width s t → t.EndsLine → ¬t.page.LeavesSpace := by
  induction run using Relation.ReflTransGen.head_induction_on with
  | refl =>
    refine (and_iff_left fun t run => ?_).symm
    rcases Relation.ReflTransGen.cases_head run with rfl | ⟨u, step, -⟩
    · rintro ⟨f, rest, none, -⟩
      cases none
    · exact absurd step not_step_of_done
  | @head s t step run ih =>
    rw [ih (within.step step), step.isTight_iff within noBreak, and_assoc]
    simp only [reaches_iff_of_step step, forall_eq_or_imp]

/-- The piece that was written last is a text of the document or begins a line. -/
theorem mem_or_break_of_reaches (within : s.Within texts) (run : Reaches width s t)
    (first : ∀ piece ∈ s.page.pieces.head?, piece ∈ texts ∨ '\n' ∈ piece.toList) :
    ∀ piece ∈ t.page.pieces.head?, piece ∈ texts ∨ '\n' ∈ piece.toList := by
  induction run using Relation.ReflTransGen.head_induction_on with
  | refl => exact first
  | @head s u step run ih =>
    refine ih (within.step step) ?_
    rcases step.page_cases within with ⟨-, same | ⟨text, mem, written⟩⟩ | ⟨-, indent, ended⟩
    · rw [same]
      exact first
    · rw [written]
      rintro _ ⟨⟩
      exact .inl mem
    · rw [ended]
      rintro _ ⟨⟩
      simp

theorem lines_text (p : Page) :
    (Text.lines p.text).dropLast = p.ended.map String.ofList := by
  rw [Text.lines, Text.splitAt, ← List.map_dropLast]
  rfl

/-- **Which lines end in a space.** Where the texts of a document have no line feeds, its lines that
are ended have no space at their ends exactly if no run that lays it out ends a line where its page
leaves a space. That is so where every text has a character that is not a space. -/
theorem render_tight_iff (d : Doc) (width : Int) (noBreak : ∀ text ∈ d.texts, '\n' ∉ text.toList) :
    ((∀ line ∈ (Text.lines (render d width)).dropLast, line.toList.getLast? ≠ some ' ') ↔
        ∀ s, Reaches width (start d) s → s.EndsLine → ¬s.page.LeavesSpace) ∧
      ((∀ text ∈ d.texts, ∃ c ∈ text.toList, c ≠ ' ') →
        ∀ line ∈ (Text.lines (render d width)).dropLast, line.toList.getLast? ≠ some ' ') := by
  obtain ⟨p, run, text⟩ := reaches_render d width
  have started : (start d).page.IsTight := nofun
  have lines : (∀ line ∈ (Text.lines (render d width)).dropLast, line.toList.getLast? ≠ some ' ') ↔
      p.IsTight := by
    rw [← text, lines_text, List.forall_mem_map, Page.IsTight]
    simp only [String.toList_ofList]
  have leaves := isTight_iff_of_reaches noBreak run (within_start d)
  rw [and_iff_right started] at leaves
  refine ⟨lines.trans leaves, fun ink => (lines.trans leaves).2 ?_⟩
  rintro t run - ⟨s, rest, pieces, spaces, -⟩
  have last := mem_or_break_of_reaches (within_start d) run nofun s (by rw [pieces]; rfl)
  rcases last with among | begins
  · obtain ⟨c, mem, other⟩ := ink s among
    exact other (spaces c mem)
  · exact absurd (spaces '\n' begins) (by decide)

/-- A list that is laid out on two lines, with a space behind the comma only where it is flat. -/
theorem render_tight_iff_of_list :
    (∀ text ∈ (Doc.group (.text "a," ++ .softSpace ++ .text "b")).texts, '\n' ∉ text.toList) ∧
      (∀ s, Reaches 3 (start (.group (.text "a," ++ .softSpace ++ .text "b"))) s → s.EndsLine →
        ¬s.page.LeavesSpace) :=
  ⟨by decide, (render_tight_iff _ 3 (by decide)).1.1 (by decide)⟩

/-- An empty text between one that ends in a space and the end of the line. -/
theorem render_leaves_space :
    (∀ text ∈ (Doc.text "a " ++ Doc.text "" ++ Doc.hardLine ++ Doc.text "b").texts,
      '\n' ∉ text.toList) ∧
      ∃ line ∈ (Text.lines
        (render (Doc.text "a " ++ Doc.text "" ++ Doc.hardLine ++ Doc.text "b") 80)).dropLast,
        line.toList.getLast? = some ' ' := by
  decide

end ClientGen.Layout
