import ClientGen.Proofs.Layout.Extent
import ClientGen.Proofs.Layout.Page
import ClientGen.Proofs.Layout.Steps

/-!
# Which groups are laid out flat

A group in a broken surrounding is laid out flat exactly if its flat text has no hard line end and,
with the text behind it up to the next line end, has room on the line. So every line with text of a
flat group is no longer than the width, and a document that fits on one line is one line
(`render_groups`).

What holds in every state of a run is `Sound`: the frames below a broken one are broken, the column
is the length of the line that was begun, and while a flat frame comes next, the rest of the line
fits (`Fits`). A step keeps that rest as it is or ends the line (`Step.writes_or_ends`), although
what was measured in broken mode may be laid out flat later.
-/

namespace ClientGen.Layout

open Text (codes)

variable {width : Int}

/-! ### The line that a page ends in -/

/-- Whether the characters of a page are lines that have ended and then a line that has not, and the
column is that line's length. -/
structure Page.OnLine (p : Page) (before line : List Char) : Prop where
  chars : p.chars = before ++ line
  begins : Text.EndsLine before
  noBreak : '\n' ∉ line
  kept : Text.Kept line
  column : p.column = (codes line).length

/-- Whether a page is another with one piece more, or with none. -/
def Page.Writes (p q : Page) : Prop :=
  ∃ w, Doc.IsPiece w ∧ q.chars = p.chars ++ w.toList ∧ q.column = p.column + Text.length w

/-- Whether a page is another with its line ended. -/
def Page.Ends (p q : Page) : Prop := ∃ indent : Int, 0 ≤ indent ∧ q = p.endLine indent

theorem Page.writes_self (p : Page) : p.Writes p :=
  ⟨"", ⟨Text.kept_nil, nofun⟩, (List.append_nil _).symm, (Int.add_zero _).symm⟩

theorem Page.writes_write (p : Page) {w : String} (piece : Doc.IsPiece w) : p.Writes (p.write w) :=
  ⟨w, piece, chars_write p w, rfl⟩

theorem Page.onLine_empty : Page.OnLine ⟨[], 0⟩ [] [] where
  chars := rfl
  begins := .inl rfl
  noBreak := nofun
  kept := Text.kept_nil
  column := rfl

theorem Page.OnLine.writes {p q : Page} {before line : List Char} (h : p.OnLine before line)
    (writes : p.Writes q) : ∃ line', q.OnLine before line' := by
  obtain ⟨w, ⟨kept, noBreak⟩, chars, column⟩ := writes
  refine ⟨line ++ w.toList, ?_, h.begins, ?_, h.kept.append kept, ?_⟩
  · rw [chars, h.chars, List.append_assoc]
  · rw [List.mem_append, not_or]
    exact ⟨h.noBreak, noBreak⟩
  · rw [column, h.column, Text.codes_append h.kept, List.length_append, Text.length]
    rfl

/-- Ending a line takes spaces away from it, and from no line before it. -/
theorem Page.OnLine.ends {p q : Page} {before line : List Char} (h : p.OnLine before line)
    (ends : p.Ends q) :
    ∃ line' trimmed next, line = line' ++ trimmed ∧ q.OnLine (before ++ line' ++ ['\n']) next := by
  obtain ⟨indent, nonneg, rfl⟩ := ends
  obtain ⟨kept, k, chars, chars'⟩ := exists_chars_endLine p indent
  obtain ⟨line', rfl, split⟩ := h.begins.exists_of_append_spaces (h.chars.symm.trans chars)
  refine ⟨line', _, List.replicate indent.toNat ' ', split, ?_, .inr ⟨_, rfl⟩, ?_,
    Text.kept_replicate_space _, ?_⟩
  · rw [chars']
    simp
  · rw [List.mem_replicate]
    exact fun space => absurd space.2 (by decide)
  · obtain ⟨n, rfl⟩ := Int.eq_ofNat_of_zero_le nonneg
    rw [Text.length_codes_replicate_space]
    rfl

/-! ### What a step does -/

/-- Whether the text that is left up to the next line end has room on the line. -/
def Fits (width : Int) (s : State) : Prop :=
  (measureFrames s.frames).ending ≠ .impossible ∧
    s.page.column + (measureFrames s.frames).columns ≤ width

/-- Whether every document that is left is plain, and none stands left of the margin. -/
def State.IsPlain (s : State) : Prop := ∀ f ∈ s.frames, 0 ≤ f.indent ∧ f.doc.IsPlain

/-- Whether the next frame is a flat one. -/
def State.IsFlat (s : State) : Prop :=
  match s.frames with
  | [] => False
  | f :: _ => f.mode = .flat

/-- A step puts parts of the first frame in its place. They have one mode, the flat one if the frame
was flat. -/
theorem Step.frames {s t : State} (h : Step width s t) :
    ∃ f rest parts mode, s.frames = f :: rest ∧ t.frames = parts ++ rest ∧
      (∀ g ∈ parts, g.mode = mode) ∧ (f.mode = .flat → mode = .flat) ∧
      (0 ≤ f.indent ∧ f.doc.IsPlain → ∀ g ∈ parts, 0 ≤ g.indent ∧ g.doc.IsPlain) := by
  cases h with
  | nil | text | flatLine | brokenLine | hardLine =>
    exact ⟨_, _, [], .flat, rfl, rfl, nofun, fun _ => rfl, fun _ => nofun⟩
  | @nest i m n d rest p =>
    refine ⟨_, _, [⟨i + n, m, d⟩], m, rfl, rfl, by simp, id, ?_⟩
    rintro ⟨margin, amount, plain⟩
    exact List.forall_mem_singleton.2 ⟨Int.add_nonneg margin amount, plain⟩
  | @append i m a b rest p =>
    refine ⟨_, _, [⟨i, m, a⟩, ⟨i, m, b⟩], m, rfl, rfl, by simp, id, ?_⟩
    rintro ⟨margin, plainA, plainB⟩
    exact List.forall_mem_cons.2 ⟨⟨margin, plainA⟩, List.forall_mem_singleton.2 ⟨margin, plainB⟩⟩
  | @flatGroup i d rest p =>
    exact ⟨_, _, [⟨i, .flat, d⟩], .flat, rfl, rfl, by simp, id,
      fun h => List.forall_mem_singleton.2 h⟩
  | @brokenGroup i d rest p =>
    exact ⟨_, _, [⟨i, groupMode width p d rest, d⟩], groupMode width p d rest, rfl, rfl, by simp,
      nofun, fun h => List.forall_mem_singleton.2 h⟩
  | @flatChoice i b f rest p =>
    exact ⟨_, _, [⟨i, .flat, f⟩], .flat, rfl, rfl, by simp, id,
      fun h => List.forall_mem_singleton.2 ⟨h.1, h.2.2⟩⟩
  | @brokenChoice i b f rest p =>
    exact ⟨_, _, [⟨i, .broken, b⟩], .broken, rfl, rfl, by simp, nofun,
      fun h => List.forall_mem_singleton.2 ⟨h.1, h.2.1⟩⟩

theorem Extent.andThen_assoc (e : Extent) (next after : Unit → Extent) :
    (e.andThen next).andThen after = e.andThen fun u => (next u).andThen after := by
  obtain ⟨n, ending⟩ := e
  cases ending with
  | through =>
    simp only [Extent.andThen]
    cases ending : (next ()).ending <;> simp [ending, Nat.add_assoc]
  | lineEnd | impossible => rfl

/-- What was measured and is then written leaves the rest of its room. -/
theorem fits_next {f : Frame} {rest : List Frame} {p q : Page} {n : Nat}
    (through : measure f.mode f.doc = ⟨n, .through⟩) (written : q.column = p.column + n)
    (fits : Fits width ⟨f :: rest, p⟩) : Fits width ⟨rest, q⟩ := by
  obtain ⟨possible, room⟩ := fits
  simp only [measureFrames, through, Extent.andThen] at possible room
  refine ⟨possible, ?_⟩
  show q.column + (measureFrames rest).columns ≤ width
  rw [written]
  omega

/-- A group that is laid out flat has room, whatever the modes of the groups behind it will be. -/
theorem fits_of_flat {i : Int} {d : Doc} {rest : List Frame} {p : Page}
    (flat : groupMode width p d rest = .flat) : Fits width ⟨⟨i, .flat, d⟩ :: rest, p⟩ := by
  rw [groupMode] at flat
  split at flat
  · next fits =>
    rw [fitsFlat, Bool.and_eq_true, bne_iff_ne, decide_eq_true_eq] at fits
    obtain ⟨possible, room⟩ := fits
    exact ⟨possible, Int.add_le_of_le_sub_left room⟩
  · cases flat

/-- No line ends in a flat document that fits. -/
theorem Fits.noBreak {i : Int} {d : Doc} {rest : List Frame} {p : Page} (plain : d.IsPlain)
    (fits : Fits width ⟨⟨i, .flat, d⟩ :: rest, p⟩) : '\n' ∉ d.spelled .flat := by
  intro ends
  have impossible : (extentOf .flat (d.spelled .flat)).ending = .impossible := by
    rw [extentOf, if_pos ends]
    rfl
  obtain ⟨possible, -⟩ := fits
  simp only [measureFrames, measure_eq plain, Extent.andThen, impossible] at possible
  exact possible rfl

/-- A step writes on the line no more than what had room there, or it ends the line, which only a
broken frame does where the rest of the line has room. -/
theorem Step.writes_or_ends {s t : State} (h : Step width s t) (plain : s.IsPlain) :
    s.page.Writes t.page ∧ (Fits width s → Fits width t) ∨
      s.page.Ends t.page ∧ (Fits width s → ¬s.IsFlat) := by
  cases h with
  | nil => exact .inl ⟨Page.writes_self _, fits_next rfl (Int.add_zero _).symm⟩
  | text =>
    obtain ⟨-, piece⟩ := plain _ List.mem_cons_self
    exact .inl ⟨Page.writes_write _ piece, fits_next rfl rfl⟩
  | flatLine =>
    obtain ⟨-, piece⟩ := plain _ List.mem_cons_self
    exact .inl ⟨Page.writes_write _ piece, fits_next rfl rfl⟩
  | @brokenLine i =>
    obtain ⟨margin, -⟩ := plain _ List.mem_cons_self
    exact .inr ⟨⟨i, margin, rfl⟩, fun _ => nofun⟩
  | @hardLine i m =>
    obtain ⟨margin, -⟩ := plain _ List.mem_cons_self
    refine .inr ⟨⟨i, margin, rfl⟩, fun fits flat => ?_⟩
    obtain rfl : m = .flat := flat
    exact fits.1 rfl
  | append =>
    refine .inl ⟨Page.writes_self _, fun fits => ?_⟩
    rw [Fits, measureFrames, measure, Extent.andThen_assoc] at fits
    exact fits
  | @brokenGroup i d rest p =>
    refine .inl ⟨Page.writes_self _, fun fits => ?_⟩
    cases mode : groupMode width p d rest with
    | flat => exact fits_of_flat mode
    | broken => exact fits
  | nest | flatGroup | flatChoice | brokenChoice => exact .inl ⟨Page.writes_self _, id⟩

/-- No flat frame stands below a broken one. -/
def State.FlatAbove (s : State) : Prop :=
  s.frames.Pairwise fun f g => f.mode = .broken → g.mode = .broken

theorem isFlat_of_rest {f : Frame} {rest : List Frame} {p q : Page}
    (above : State.FlatAbove ⟨f :: rest, p⟩) (flat : State.IsFlat ⟨rest, q⟩) : f.mode = .flat := by
  cases rest with
  | nil => exact flat.elim
  | cons g rest =>
    cases mode : f.mode with
    | flat => rfl
    | broken =>
      have below : g.mode = .broken := (List.pairwise_cons.1 above).1 g List.mem_cons_self mode
      have flat : g.mode = .flat := flat
      nomatch below.symm.trans flat

/-- A flat frame that comes next follows a flat one, or fits. -/
theorem Step.isFlat_or_fits {s t : State} (h : Step width s t) (above : s.FlatAbove)
    (flat : t.IsFlat) : s.IsFlat ∨ Fits width t := by
  cases h with
  | nil | text | flatLine | brokenLine | hardLine => exact .inl (isFlat_of_rest above flat)
  | nest | append | flatGroup | flatChoice | brokenChoice => exact .inl flat
  | @brokenGroup i d rest p =>
    have mode : groupMode width p d rest = .flat := flat
    rw [mode]
    exact .inr (fits_of_flat mode)

/-! ### What holds throughout a run -/

/-- What holds in every state of a run with a plain document. -/
structure Sound (width : Int) (s : State) : Prop where
  plain : s.IsPlain
  flatAbove : s.FlatAbove
  onLine : ∃ before line, s.page.OnLine before line
  fits : s.IsFlat → Fits width s

theorem sound_start {d : Doc} (plain : d.IsPlain) : Sound width (start d) where
  plain := List.forall_mem_singleton.2 ⟨Int.le_refl 0, plain⟩
  flatAbove := List.pairwise_singleton ..
  onLine := ⟨[], [], Page.onLine_empty⟩
  fits := nofun

theorem State.IsPlain.step {s t : State} (h : s.IsPlain) (step : Step width s t) : t.IsPlain := by
  obtain ⟨f, rest, parts, mode, frames, frames', -, -, inside⟩ := step.frames
  rw [State.IsPlain, frames] at h
  obtain ⟨first, others⟩ := List.forall_mem_cons.1 h
  rw [State.IsPlain, frames']
  exact List.forall_mem_append.2 ⟨inside first, others⟩

theorem State.FlatAbove.step {s t : State} (h : s.FlatAbove) (step : Step width s t) :
    t.FlatAbove := by
  obtain ⟨f, rest, parts, mode, frames, frames', same, flat, -⟩ := step.frames
  rw [State.FlatAbove, frames, List.pairwise_cons] at h
  obtain ⟨below, others⟩ := h
  rw [State.FlatAbove, frames', List.pairwise_append]
  refine ⟨?_, others, ?_⟩
  · refine List.pairwise_of_forall_mem_list fun g hg g' hg' broken => ?_
    rw [same g' hg', ← same g hg, broken]
  · intro g hg g' hg' broken
    refine below g' hg' ?_
    cases was : f.mode with
    | broken => rfl
    | flat => rw [same g hg, flat was] at broken; nomatch broken

/-- A step goes on with the line, or begins another below it. -/
theorem Step.onLine {s t : State} (h : Step width s t) (plain : s.IsPlain)
    {before line : List Char} (onLine : s.page.OnLine before line) :
    ∃ more line', t.page.OnLine (before ++ more) line' := by
  rcases h.writes_or_ends plain with ⟨writes, -⟩ | ⟨ends, -⟩
  · obtain ⟨line', onLine'⟩ := onLine.writes writes
    exact ⟨[], line', by rwa [List.append_nil]⟩
  · obtain ⟨line', trimmed, next, -, onLine'⟩ := onLine.ends ends
    exact ⟨line' ++ ['\n'], next, by rwa [← List.append_assoc]⟩

theorem Sound.step {s t : State} (h : Sound width s) (step : Step width s t) : Sound width t where
  plain := h.plain.step step
  flatAbove := h.flatAbove.step step
  onLine := by
    obtain ⟨before, line, onLine⟩ := h.onLine
    obtain ⟨more, line', onLine'⟩ := step.onLine h.plain onLine
    exact ⟨before ++ more, line', onLine'⟩
  fits flat := by
    rcases step.isFlat_or_fits h.flatAbove flat with was | fits
    · rcases step.writes_or_ends h.plain with ⟨-, goesOn⟩ | ⟨-, broken⟩
      · exact goesOn (h.fits was)
      · exact absurd was (broken (h.fits was))
    · exact fits

theorem Sound.reaches {s t : State} (h : Sound width s) (run : Reaches width s t) :
    Sound width t := by
  induction run with
  | refl => exact h
  | tail _ step ih => exact ih.step step

/-- Lines that have ended stay as they are. -/
theorem Sound.exists_onLine {s t : State} (h : Sound width s) (run : Reaches width s t)
    {before line : List Char} (onLine : s.page.OnLine before line) :
    ∃ more line', t.page.OnLine (before ++ more) line' := by
  induction run with
  | refl => exact ⟨[], line, by rwa [List.append_nil]⟩
  | tail run step ih =>
    obtain ⟨more, line', onLine'⟩ := ih
    obtain ⟨more', line'', onLine''⟩ := step.onLine (h.reaches run).plain onLine'
    exact ⟨more ++ more', line'', by rwa [← List.append_assoc]⟩

/-- A line whose rest has room is no longer than the width when the run has ended. -/
theorem Sound.exists_line {s : State} {p : Page} (h : Sound width s)
    (run : Reaches width s ⟨[], p⟩) {before line : List Char}
    (onLine : s.page.OnLine before line) (fits : Fits width s) :
    ∃ line' after, p.chars = before ++ (line' ++ after) ∧ '\n' ∉ line' ∧
      (after = [] ∨ ∃ rest, after = '\n' :: rest) ∧ ((codes line').length : Int) ≤ width := by
  induction run using Relation.ReflTransGen.head_induction_on generalizing line with
  | refl =>
    refine ⟨line, [], by rw [List.append_nil, ← onLine.chars], onLine.noBreak, .inl rfl, ?_⟩
    have room := fits.2
    rw [onLine.column] at room
    omega
  | @head s t step run ih =>
    rcases step.writes_or_ends h.plain with ⟨writes, goesOn⟩ | ⟨ends, -⟩
    · obtain ⟨line', onLine'⟩ := onLine.writes writes
      exact ih (h.step step) onLine' (goesOn fits)
    · obtain ⟨line', trimmed, next, split, onLine'⟩ := onLine.ends ends
      obtain ⟨more, last, final⟩ := (h.step step).exists_onLine run onLine'
      have noBreak := onLine.noBreak
      have shorter := Text.length_codes_le_append line' trimmed
      have room := fits.2
      rw [split, List.mem_append, not_or] at noBreak
      rw [onLine.column, split] at room
      refine ⟨line', '\n' :: (more ++ last), ?_, noBreak.1, .inr ⟨_, rfl⟩, by omega⟩
      rw [final.chars]
      simp

/-! ### Decisions and their consequences -/

/-- The frames below a broken one are broken and plain. -/
theorem Sound.below {i : Int} {d : Doc} {rest : List Frame} {p : Page}
    (h : Sound width ⟨⟨i, .broken, d⟩ :: rest, p⟩) :
    (∀ f ∈ rest, f.doc.IsPlain) ∧ ∀ f ∈ rest, f.mode = .broken :=
  ⟨fun f mem => (h.plain f (List.mem_cons_of_mem _ mem)).2,
    fun f mem => (List.pairwise_cons.1 h.flatAbove).1 f mem rfl⟩

/-- The mode of a group that is met in a broken surrounding. -/
theorem Sound.groupMode_eq {i : Int} {d : Doc} {rest : List Frame} {p : Page}
    (h : Sound width ⟨⟨i, .broken, .group d⟩ :: rest, p⟩) :
    groupMode width p d rest =
      if '\n' ∉ d.flatText.toList ∧
        p.column + Text.length d.flatText + Text.length (textToLineEnd rest) ≤ width
      then .flat else .broken := by
  obtain ⟨plainRest, broken⟩ := h.below
  have plain : d.IsPlain := (h.plain _ List.mem_cons_self).2
  have decides := fitsFlat_iff plain plainRest broken (width - p.column)
  have room : (Text.length d.flatText : Int) + Text.length (textToLineEnd rest) ≤
      width - p.column ↔
      p.column + Text.length d.flatText + Text.length (textToLineEnd rest) ≤ width := by omega
  rw [room] at decides
  rw [groupMode]
  simp only [decides]

theorem Page.OnLine.lastLine {p : Page} {before line : List Char} (h : p.OnLine before line) :
    ∃ s, (Text.lines p.text).getLast? = some s ∧ p.column = Text.length s := by
  refine ⟨String.ofList line, Text.getLast?_lines h.chars h.begins h.noBreak, ?_⟩
  rw [h.column, Text.length, String.toList_ofList]

/-- The line that is written on while a flat frame comes next. -/
theorem Sound.line_of_flat {s : State} {p : Page} (h : Sound width s) (flat : s.IsFlat)
    (run : Reaches width s ⟨[], p⟩) :
    ∃ line, (Text.lines p.text)[s.page.text.toList.count '\n']? = some line ∧
      (Text.length line : Int) ≤ width := by
  obtain ⟨before, line, onLine⟩ := h.onLine
  obtain ⟨line', after, chars, noBreak, ended, room⟩ := h.exists_line run onLine (h.fits flat)
  have number : s.page.text.toList.count '\n' = before.count '\n' := by
    have same : s.page.text.toList = before ++ line := onLine.chars
    rw [same, List.count_append, List.count_eq_zero.2 onLine.noBreak, Nat.add_zero]
  refine ⟨String.ofList line', ?_, ?_⟩
  · rw [number]
    exact Text.getElem?_lines chars onLine.begins noBreak ended
  · rwa [Text.length, String.toList_ofList]

/-- A document without hard line ends that is laid out flat is its flat text. -/
theorem chars_place_flat {d : Doc} (noBreak : '\n' ∉ d.spelled .flat) (rest : List Frame)
    (i : Int) (p : Page) :
    (place width rest i .flat d p).chars = p.chars ++ d.spelled .flat := by
  induction d generalizing rest i p with
  | nil => exact (List.append_nil _).symm
  | text s => exact Page.chars_write p s
  | line flat => exact Page.chars_write p flat
  | hardLine => exact absurd List.mem_cons_self noBreak
  | nest n d ih => exact ih noBreak rest (i + n) p
  | append a b iha ihb =>
    rw [Doc.spelled, List.mem_append, not_or] at noBreak
    rw [place, ihb noBreak.2, iha noBreak.1, Doc.spelled, List.append_assoc]
  | group d ih => exact ih noBreak rest i p
  | ifBroken b f _ ih => exact ih noBreak rest i p

/-- A flat frame that a run meets writes its flat text, which has no line end. -/
theorem Sound.text_of_flat {i : Int} {d : Doc} {rest : List Frame} {p : Page}
    (h : Sound width ⟨⟨i, .flat, d⟩ :: rest, p⟩) :
    '\n' ∉ d.flatText.toList ∧ (place width rest i .flat d p).text = p.text ++ d.flatText := by
  have noBreak := (h.fits rfl).noBreak (h.plain _ List.mem_cons_self).2
  rw [Doc.flatText, String.toList_ofList]
  refine ⟨noBreak, String.toList_inj.1 ?_⟩
  rw [String.toList_append, String.toList_ofList]
  exact chars_place_flat noBreak rest i p

theorem render_group_of_fits {d : Doc} (plain : d.IsPlain) (noBreak : '\n' ∉ d.flatText.toList)
    (room : (Text.length d.flatText : Int) ≤ width) : render (.group d) width = d.flatText := by
  have fits : fitsFlat (width - 0) d [] = true := by
    refine (fitsFlat_iff plain (List.forall_mem_nil _) (List.forall_mem_nil _) _).2 ⟨noBreak, ?_⟩
    have none : Text.length (textToLineEnd []) = 0 := rfl
    rw [none]
    omega
  rw [Doc.flatText, String.toList_ofList] at noBreak
  refine String.toList_inj.1 ?_
  rw [render, place]
  simp only [fits, if_true]
  refine (chars_place_flat noBreak [] 0 ⟨[], 0⟩).trans ?_
  rw [Doc.flatText, String.toList_ofList]
  rfl

/-- A run with a plain document ends with the text of the document. A group that it meets in a
broken surrounding, at a column that is the length of the last line, is laid out flat exactly if its
flat text has no hard line end and fits on the line with the text behind it up to the next line end,
where groups count as broken. What is laid out flat is written as its flat text, and the line it is
written on ends up no longer than the width. A document whose flat text has no hard line end and is
no longer than the width is that text. -/
theorem render_groups {d : Doc} (plain : d.IsPlain) (width : Int) :
    (∃ p, Reaches width (start d) ⟨[], p⟩ ∧ p.text = render d width) ∧
    (∀ i g rest p, Reaches width (start d) ⟨⟨i, .broken, .group g⟩ :: rest, p⟩ →
      (∃ line, (Text.lines p.text).getLast? = some line ∧ p.column = Text.length line) ∧
      ∀ t, Step width ⟨⟨i, .broken, .group g⟩ :: rest, p⟩ t ↔
        t = ⟨⟨i, if '\n' ∉ g.flatText.toList ∧
          p.column + Text.length g.flatText + Text.length (textToLineEnd rest) ≤ width
          then .flat else .broken, g⟩ :: rest, p⟩) ∧
    (∀ i g rest p, Reaches width (start d) ⟨⟨i, .flat, g⟩ :: rest, p⟩ →
      '\n' ∉ g.flatText.toList ∧ (place width rest i .flat g p).text = p.text ++ g.flatText ∧
      ∃ line, (Text.lines (render d width))[p.text.toList.count '\n']? = some line ∧
        (Text.length line : Int) ≤ width) ∧
    ('\n' ∉ d.flatText.toList → (Text.length d.flatText : Int) ≤ width →
      render (.group d) width = d.flatText) := by
  have sound : Sound width (start d) := sound_start plain
  obtain ⟨final, run, text⟩ := reaches_render d width
  refine ⟨⟨final, run, text⟩, ?decides, ?bound, render_group_of_fits plain⟩
  case decides =>
    intro i g rest p reached
    have here := sound.reaches reached
    obtain ⟨before, line, onLine⟩ := here.onLine
    refine ⟨onLine.lastLine, fun t => ?_⟩
    rw [← here.groupMode_eq]
    constructor
    · intro step
      exact step.deterministic .brokenGroup
    · rintro rfl
      exact .brokenGroup
  case bound =>
    intro i g rest p reached
    have here := sound.reaches reached
    obtain ⟨noBreak, writes⟩ := here.text_of_flat
    refine ⟨noBreak, writes, ?_⟩
    rw [← text]
    exact here.line_of_flat rfl (reaches_end reached run)

/-- On lines of four columns, the inner one of two groups is flat. -/
theorem render_groups_of_words :
    ∃ p,
      Reaches 4 (start (.group ("let" ++ Doc.softSpace ++ .group ("a" ++ Doc.softSpace ++ "b;"))))
        ⟨[], p⟩ ∧ p.text = "let\na b;" := by
  have space : Doc.softSpace.IsPlain := ⟨⟨[32], by decide, by decide⟩, by decide⟩
  have word : (Doc.text "let").IsPlain := ⟨⟨[108, 101, 116], by decide, by decide⟩, by decide⟩
  have first : (Doc.text "a").IsPlain := ⟨⟨[97], by decide, by decide⟩, by decide⟩
  have second : (Doc.text "b;").IsPlain := ⟨⟨[98, 59], by decide, by decide⟩, by decide⟩
  have plain : Doc.IsPlain (.group ("let" ++ Doc.softSpace ++
      .group ("a" ++ Doc.softSpace ++ "b;"))) := ⟨⟨word, space⟩, ⟨first, space⟩, second⟩
  obtain ⟨p, run, text⟩ := (render_groups plain 4).1
  exact ⟨p, run, text.trans (by decide)⟩

end ClientGen.Layout
