import ClientGen.Proofs.Layout.Ink
import ClientGen.Proofs.TypeExpr.Parts
import Mathlib.Data.List.Forall2

/-!
# What laying out adds

Ending a line takes away spaces that were written last. So a document whose first text is followed
by other text on its line keeps what stands before it: laying it out adds to the page (`Adds`),
whatever the width, the indentation and the mode are. Documents that are put together from text add,
and so do those that open with a mark (`IsSolid.adds`).

What is added is a text of the document (`LaidOut`). Two documents add a text of each
(`Adds.laidOut_append`), the items of a list add a text of each with what separates them
(`exists_place_items`), and all texts of a steady document are the same when they are squeezed
(`Steady.squeezed_of_laidOut`).
-/

namespace ClientGen.Layout

/-! ### Characters that stay -/

/-- Whether a page begins with characters, and has more than spaces behind them. -/
def Holds (base : List Char) (p : Page) : Prop :=
  ∃ front c, c ≠ ' ' ∧ base ++ front ++ [c] <+: p.chars

theorem Holds.isPrefix {base : List Char} {p : Page} (h : Holds base p) : base <+: p.chars := by
  obtain ⟨front, c, -, stays⟩ := h
  exact (List.prefix_append base (front ++ [c])).trans (by simpa using stays)

theorem Holds.write {base : List Char} {p : Page} (h : Holds base p) (s : String) :
    Holds base (p.write s) := by
  obtain ⟨front, c, solid, stays⟩ := h
  refine ⟨front, c, solid, stays.trans ?_⟩
  rw [Page.chars_write]
  exact List.prefix_append _ _

theorem Holds.endLine {base : List Char} {p : Page} (h : Holds base p) (indent : Int) :
    Holds base (p.endLine indent) := by
  obtain ⟨front, c, solid, stays⟩ := h
  obtain ⟨kept, k, split, ended⟩ := p.exists_chars_endLine indent
  refine ⟨front, c, solid, ?_⟩
  rw [split] at stays
  rw [ended]
  exact (Page.prefix_of_prefix_append_spaces solid stays).trans (List.prefix_append kept _)

/-- Laying out more takes away nothing of characters that have more than spaces behind them. -/
theorem holds_place {base : List Char} (width : Int) (rest : List Frame) (indent : Int)
    (mode : Mode) (d : Doc) {p : Page} (h : Holds base p) : Holds base (place width rest indent mode d p) := by
  have lays : Lays (fun p (_ : Unit → Unit) => Holds base p) (fun p _ => Holds base p) d id := by
    clear h
    induction d with
    | nil => exact lays_nil
    | text s => exact fun _ _ _ _ _ _ h => h.write s
    | line flat => exact lays_line (fun _ _ h => h.write flat) fun _ _ indent h => h.endLine indent
    | hardLine => exact fun _ _ indent _ _ _ h => h.endLine indent
    | nest n d ih => exact ih.nest n
    | append a b iha ihb => exact iha.append ihb
    | group d ih => exact ih.group
    | ifBroken b f ihb ihf => exact ihb.ifBroken ihf
  exact lays width rest indent mode p id h

/-! ### Documents that add -/

/-- Whether laying out a document adds to what is on the page. -/
def Adds (d : Doc) : Prop :=
  ∀ width rest indent mode p, p.chars <+: (place width rest indent mode d p).chars

section Adds

variable {a b d : Doc}

theorem adds_nil : Adds .nil := fun _ _ _ _ _ => List.prefix_refl _

theorem adds_text (s : String) : Adds (.text s) := by
  intro width rest indent mode p
  rw [place, Page.chars_write]
  exact List.prefix_append _ _

theorem Adds.append (ha : Adds a) (hb : Adds b) : Adds (a ++ b) :=
  fun width _ indent mode p => (ha width _ indent mode p).trans (hb width _ indent mode _)

theorem Adds.nest (h : Adds d) (amount : Int) : Adds (.nest amount d) :=
  fun width rest indent mode => h width rest (indent + amount) mode

theorem Adds.group (h : Adds d) : Adds (.group d) := by
  intro width rest indent mode
  cases mode with
  | flat => exact h width rest indent .flat
  | broken => exact fun p => h width rest indent _ p

theorem Adds.intersperse {separator : Doc} (hs : Adds separator) {ds : List Doc}
    (h : ∀ d ∈ ds, Adds d) : Adds (Doc.intersperse separator ds) := by
  induction ds with
  | nil => exact adds_nil
  | cons d ds ih =>
    obtain ⟨first, others⟩ := List.forall_mem_cons.1 h
    cases ds with
    | nil => exact first
    | cons e ds => exact (first.append hs).append (ih others)

end Adds

/-- Whether laying out a document adds more than spaces to what is on the page. -/
def IsSolid (d : Doc) : Prop :=
  ∀ width rest indent mode p, Holds p.chars (place width rest indent mode d p)

theorem isSolid_text {s : String} {front : List Char} {c : Char} (text : s.toList = front ++ [c])
    (solid : c ≠ ' ') : IsSolid (.text s) := by
  intro width rest indent mode p
  have written : p.chars ++ front ++ [c] = (place width rest indent mode (.text s) p).chars := by
    rw [place, Page.chars_write, text, List.append_assoc]
  exact ⟨front, c, solid, [], by rw [List.append_nil, written]⟩

/-- What follows a solid document may be any. -/
theorem IsSolid.append {a : Doc} (h : IsSolid a) (b : Doc) : IsSolid (a ++ b) :=
  fun width rest indent mode p => holds_place width rest indent mode b (h width _ indent mode p)

theorem IsSolid.group {d : Doc} (h : IsSolid d) : IsSolid (.group d) := by
  intro width rest indent mode
  cases mode with
  | flat => exact h width rest indent .flat
  | broken => exact fun p => h width rest indent _ p

theorem IsSolid.adds {d : Doc} (h : IsSolid d) : Adds d :=
  fun width rest indent mode p => (h width rest indent mode p).isPrefix

/-! ### The text that is added -/

/-- Whether a text is what laying out a document on lines of some width adds to some page. -/
def LaidOut (width : Int) (d : Doc) (w : String) : Prop :=
  ∃ rest indent mode p, (place width rest indent mode d p).chars = p.chars ++ w.toList

section LaidOut

variable {width : Int} {a b d : Doc} {w : String}

theorem Adds.exists_laidOut (h : Adds d) (width : Int) (rest : List Frame) (indent : Int)
    (mode : Mode) (p : Page) : ∃ w, LaidOut width d w ∧
      (place width rest indent mode d p).chars = p.chars ++ w.toList := by
  obtain ⟨added, chars⟩ := h width rest indent mode p
  have text : (place width rest indent mode d p).chars =
      p.chars ++ (String.ofList added).toList := by
    rw [String.toList_ofList, chars]
  exact ⟨String.ofList added, ⟨rest, indent, mode, p, text⟩, text⟩

theorem eq_of_laidOut_text {s : String} (h : LaidOut width (.text s) w) : w = s := by
  obtain ⟨rest, indent, mode, p, text⟩ := h
  rw [place, Page.chars_write] at text
  exact (String.toList_inj.1 (List.append_cancel_left text)).symm

/-- The text of two documents is the text of the first and that of the second. -/
theorem Adds.laidOut_append (ha : Adds a) (hb : Adds b) (h : LaidOut width (a ++ b) w) :
    ∃ u v, LaidOut width a u ∧ LaidOut width b v ∧ w = u ++ v := by
  obtain ⟨rest, indent, mode, p, text⟩ := h
  obtain ⟨u, first, chars⟩ := ha.exists_laidOut width (⟨indent, mode, b⟩ :: rest) indent mode p
  obtain ⟨v, second, chars'⟩ := hb.exists_laidOut width rest indent mode
    (place width (⟨indent, mode, b⟩ :: rest) indent mode a p)
  refine ⟨u, v, first, second, ?_⟩
  have both : p.chars ++ w.toList = p.chars ++ (u.toList ++ v.toList) := by
    rw [← List.append_assoc, ← chars, ← chars', ← text]
    rfl
  rw [← String.toList_inj, String.toList_append, List.append_cancel_left both]

/-- What a steady document adds has the squeezed text of the document. -/
theorem Steady.squeezed_of_laidOut (steady : Steady d) (h : LaidOut width d w) (width' : Int) :
    squeezed w = squeezed (render d width') := by
  obtain ⟨rest, indent, mode, p, text⟩ := h
  obtain ⟨inked, lays⟩ := steady
  have added : p.chars.foldr ink (w.toList.foldr ink []) = p.chars.foldr ink (inked []) := by
    rw [← List.foldr_append, ← text]
    exact lays width rest indent mode p (p.chars.foldr ink) (fun _ => rfl) []
  have rendered : (render d width').toList.foldr ink [] = inked [] :=
    lays width' [] 0 .broken ⟨[], 0⟩ id (fun _ => rfl) []
  rw [squeezed_eq, squeezed_eq, foldr_ink_injective _ added, rendered]

/-- What stands between the items of a list. -/
def separation (mode : Mode) (indent : Int) : String :=
  match mode with
  | .flat => ", "
  | .broken => ",\n" ++ Text.spaces indent.toNat

theorem chars_place_separation (width : Int) (rest : List Frame) (indent : Int) (mode : Mode)
    (p : Page) : (place width rest indent mode (.text "," ++ Doc.softSpace) p).chars =
      p.chars ++ (separation mode indent).toList := by
  cases mode with
  | flat =>
    have written : (place width rest indent .flat (.text "," ++ Doc.softSpace) p).chars =
        ((p.write ",").write " ").chars := rfl
    rw [written, Page.chars_write, Page.chars_write, separation]
    simp
  | broken =>
    have written : (place width rest indent .broken (.text "," ++ Doc.softSpace) p).chars =
        ((p.write ",").endLine indent).chars := rfl
    rw [written, Page.chars_endLine_write (by decide), separation]
    simp

/-- The items of a list add their texts, and what separates them. -/
theorem exists_place_items {items : List Doc} (h : ∀ d ∈ items, Adds d) (width : Int)
    (rest : List Frame) (indent : Int) (mode : Mode) (p : Page) :
    ∃ texts, List.Forall₂ (LaidOut width) items texts ∧
      (place width rest indent mode (Doc.intersperse (.text "," ++ Doc.softSpace) items) p).chars =
        p.chars ++ ((separation mode indent).intercalate texts).toList := by
  induction items generalizing p with
  | nil => exact ⟨[], .nil, (List.append_nil _).symm⟩
  | cons d items ih =>
    obtain ⟨first, others⟩ := List.forall_mem_cons.1 h
    cases items with
    | nil =>
      obtain ⟨w, laid, chars⟩ := first.exists_laidOut width rest indent mode p
      exact ⟨[w], .cons laid .nil, by rw [String.intercalate_singleton]; exact chars⟩
    | cons e items =>
      let between : Doc := .text "," ++ Doc.softSpace
      let tail : Doc := Doc.intersperse between (e :: items)
      obtain ⟨w, laid, chars⟩ := first.exists_laidOut width
        (⟨indent, mode, between⟩ :: ⟨indent, mode, tail⟩ :: rest) indent mode p
      obtain ⟨texts, all, chars'⟩ := ih others (place width (⟨indent, mode, tail⟩ :: rest) indent
        mode between (place width (⟨indent, mode, between⟩ :: ⟨indent, mode, tail⟩ :: rest) indent
          mode d p))
      cases all with
      | @cons _ v _ texts second all =>
      refine ⟨w :: v :: texts, .cons laid (.cons second all), ?_⟩
      rw [String.intercalate_cons_cons, String.toList_append, String.toList_append,
        ← List.append_assoc, ← List.append_assoc, ← chars, ← chars_place_separation, ← chars']
      rfl

end LaidOut

end ClientGen.Layout

namespace ClientGen.TypeExpr

open Layout (Adds adds_text isSolid_text)

/-! ### Types -/

theorem adds_memberBlock (members : List Doc) (spread : Bool) :
    Adds (memberBlock members spread) := by
  have opening : "\x7b".toList = [] ++ ['\x7b'] := rfl
  have mark := isSolid_text opening (by decide)
  rw [memberBlock]
  split
  · exact adds_text _
  · split
    · exact (((mark.append _).append _).append _).adds
    · exact (((mark.append _).append _).append _).group.adds

/-- Laying out a type adds its text. -/
theorem adds_doc (t : TypeExpr) : Adds t.doc :=
  LaysTypes.doc ⟨Layout.adds_nil, adds_text, Adds.append, fun _ => adds_memberBlock _⟩ t

end ClientGen.TypeExpr
