import ClientGen.Proofs.Layout.Page

/-!
# What the width does not change

A text without its spaces, its line ends and the separators that closing marks follow (`squeezed`).
Squeezing goes from right to left one character at a time (`squeezed_eq`), so a document whose
layout always adds to the characters of a page in one way (`Steady`) has one squeezed text at all
widths (`Steady.squeezed_render`). Documents are steady that are put together from text, line ends
that are blank when flat, and bracketed lists whose last separator may be missing
(`Steady.closed`).
-/

namespace ClientGen.Layout

/-! ### Squeezed texts -/

/-- Whether a character is no space and no line end. -/
def isInk (c : Char) : Bool := c != ' ' && c != '\n'

/-- Whether a character separates the items of a list. -/
def isSeparator (c : Char) : Bool := c == ',' || c == ';'

/-- Whether a character closes a list. -/
def isClosing (c : Char) : Bool := c == '\x7d' || c == ')'

/-- Characters without the runs of separators that a closing mark follows directly. -/
def dropSeparators : List Char → List Char
  | [] => []
  | c :: rest =>
    if isSeparator c && (rest.dropWhile isSeparator).head?.any isClosing then dropSeparators rest
    else c :: dropSeparators rest

/-- A text without spaces and line ends, and then without the runs of separators that a closing mark
follows directly. -/
def squeezed (s : String) : String := String.ofList (dropSeparators (s.toList.filter isInk))

/-- Puts a character in front of squeezed ones. -/
def ink (c : Char) (after : List Char) : List Char :=
  if !isInk c || isSeparator c && after.head?.any isClosing then after else c :: after

theorem not_isClosing_of_isSeparator {c : Char} (sep : isSeparator c = true) :
    isClosing c = false := by
  rw [isSeparator, Bool.or_eq_true, beq_iff_eq, beq_iff_eq] at sep
  rcases sep with rfl | rfl <;> decide

/-- A closing mark follows separators before they are dropped if it does afterwards. -/
theorem head_dropSeparators (cs : List Char) :
    (dropSeparators cs).head?.any isClosing = (cs.dropWhile isSeparator).head?.any isClosing := by
  induction cs with
  | nil => rfl
  | cons c rest ih =>
    by_cases sep : isSeparator c = true
    · rw [dropSeparators, sep, Bool.true_and, List.dropWhile_cons_of_pos sep]
      split
      · exact ih
      · next none =>
        rw [Bool.not_eq_true] at none
        rw [none]
        exact not_isClosing_of_isSeparator sep
    · rw [dropSeparators, List.dropWhile_cons_of_neg sep, Bool.not_eq_true] at *
      rw [sep, Bool.false_and]
      rfl

/-- Squeezing goes from right to left. -/
theorem squeezed_eq (s : String) : squeezed s = String.ofList (s.toList.foldr ink []) := by
  rw [squeezed]
  congr 1
  induction s.toList with
  | nil => rfl
  | cons c rest ih =>
    rw [List.foldr_cons, ← ih, ink, head_dropSeparators]
    by_cases shown : isInk c = true
    · rw [List.filter_cons_of_pos shown, dropSeparators, shown]
      rfl
    · rw [Bool.not_eq_true] at shown
      rw [List.filter_cons_of_neg (by rw [shown]; nofun), shown]
      rfl

/-- Whether a mark is dropped where another follows it. -/
def Drops (separator closing : String) : Prop :=
  ∀ after, separator.toList.foldr ink (closing.toList.foldr ink after) =
    closing.toList.foldr ink after

/-- A separator is dropped where a closing mark follows it. -/
theorem drops_of_isClosing {s c : Char} (sep : isSeparator s = true) (closes : isClosing c = true)
    {separator closing : String} (one : separator.toList = [s]) (other : closing.toList = [c]) :
    Drops separator closing := by
  intro after
  have shown : isInk c = true ∧ isSeparator c = false := by
    rw [isClosing, Bool.or_eq_true, beq_iff_eq, beq_iff_eq] at closes
    rcases closes with rfl | rfl <;> decide
  have kept : ink c after = c :: after := by
    rw [ink, shown.1, shown.2]
    rfl
  rw [one, other, List.foldr_cons, List.foldr_nil, List.foldr_cons, List.foldr_nil, kept, ink, sep,
    List.head?_cons, Option.any_some, closes, Bool.and_self, Bool.or_true]
  rfl

theorem foldr_ink_of_blank {cs : List Char} (blank : ∀ c ∈ cs, isInk c = false)
    (after : List Char) : cs.foldr ink after = after := by
  induction cs with
  | nil => rfl
  | cons c rest ih =>
    obtain ⟨first, others⟩ := List.forall_mem_cons.1 blank
    rw [List.foldr_cons, ih others, ink, first]
    rfl

theorem isInk_of_mem_replicate_space {c : Char} {k : Nat} (mem : c ∈ List.replicate k ' ') :
    isInk c = false := by
  rw [List.eq_of_mem_replicate mem]
  rfl

/-- What a character was put in front of can be read off from the result. -/
theorem ink_injective (c : Char) : Function.Injective (ink c) := by
  -- a dropped separator stands before a closing mark, and so not before itself
  have apart {as bs : List Char}
      (dropped : (!isInk c || isSeparator c && as.head?.any isClosing) = true)
      (kept : ¬(!isInk c || isSeparator c && bs.head?.any isClosing) = true) : as ≠ c :: bs := by
    rintro rfl
    rw [List.head?_cons, Option.any_some, Bool.or_eq_true, Bool.and_eq_true] at dropped
    rcases dropped with hidden | ⟨separates, closes⟩
    · exact kept (by rw [hidden, Bool.true_or])
    · exact absurd ((not_isClosing_of_isSeparator separates).symm.trans closes) nofun
  intro as bs same
  rw [ink, ink] at same
  split at same <;> rename_i first <;> split at same <;> rename_i second
  · exact same
  · exact absurd same (apart first second)
  · exact absurd same.symm (apart second first)
  · exact (List.cons.inj same).2

theorem foldr_ink_injective (cs : List Char) : Function.Injective (cs.foldr ink) := by
  induction cs with
  | nil => exact fun _ _ same => same
  | cons c rest ih => exact (ink_injective c).comp ih

/-- Ending a line changes nothing but blank space. -/
theorem foldr_ink_endLine (p : Page) (indent : Int) (after : List Char) :
    (p.endLine indent).chars.foldr ink after = p.chars.foldr ink after := by
  obtain ⟨kept, k, chars, chars'⟩ := p.exists_chars_endLine indent
  have blank : ∀ c ∈ '\n' :: List.replicate indent.toNat ' ', isInk c = false :=
    List.forall_mem_cons.2 ⟨rfl, fun _ => isInk_of_mem_replicate_space⟩
  rw [chars', chars, List.foldr_append, List.foldr_append, foldr_ink_of_blank blank,
    foldr_ink_of_blank fun _ => isInk_of_mem_replicate_space]

/-! ### Steady documents -/

/-- What is squeezed out of a page, in front of what follows. -/
def Inked (p : Page) (k : List Char → List Char) : Prop :=
  ∀ after, p.chars.foldr ink after = k after

/-- What is squeezed out of a page in front of a closing mark. -/
def InkedBefore (closing : String) (p : Page) (k : List Char → List Char) : Prop :=
  ∀ after, p.chars.foldr ink (closing.toList.foldr ink after) = k (closing.toList.foldr ink after)

/-- Whether a document puts the same squeezed characters in front of what follows, whatever the
width, the indentation and the mode are. -/
def Steady (d : Doc) : Prop := ∃ inked, Lays Inked Inked d inked

/-- The squeezed text of a steady document is the same at all widths. -/
theorem Steady.squeezed_render {d : Doc} (h : Steady d) (width width' : Int) :
    squeezed (render d width) = squeezed (render d width') := by
  obtain ⟨inked, same⟩ := h
  have any (w : Int) : (render d w).toList.foldr ink [] = inked [] :=
    same w [] 0 .broken ⟨[], 0⟩ id (fun _ => rfl) []
  rw [squeezed_eq, squeezed_eq, any, any]

theorem lays_inked_text (s : String) : Lays Inked Inked (.text s) (s.toList.foldr ink) := by
  intro width rest indent mode p k h after
  rw [place, Page.chars_write, List.foldr_append, h]
  rfl

theorem steady_nil : Steady .nil := ⟨id, lays_nil⟩

theorem steady_text (s : String) : Steady (.text s) := ⟨_, lays_inked_text s⟩

theorem Steady.nest {d : Doc} (h : Steady d) (amount : Int) : Steady (.nest amount d) := by
  obtain ⟨inked, lays⟩ := h
  exact ⟨inked, lays.nest amount⟩

theorem Steady.group {d : Doc} (h : Steady d) : Steady (.group d) := by
  obtain ⟨inked, lays⟩ := h
  exact ⟨inked, lays.group⟩

theorem Steady.append {a b : Doc} (ha : Steady a) (hb : Steady b) : Steady (a ++ b) := by
  obtain ⟨inkedA, laysA⟩ := ha
  obtain ⟨inkedB, laysB⟩ := hb
  exact ⟨inkedA ∘ inkedB, laysA.append laysB⟩

theorem Steady.concat {ds : List Doc} (h : ∀ d ∈ ds, Steady d) : Steady (Doc.concat ds) := by
  induction ds with
  | nil => exact steady_nil
  | cons d ds ih =>
    obtain ⟨first, others⟩ := List.forall_mem_cons.1 h
    exact first.append (ih others)

theorem Steady.intersperse {separator : Doc} (hs : Steady separator) {ds : List Doc}
    (h : ∀ d ∈ ds, Steady d) : Steady (Doc.intersperse separator ds) := by
  induction ds with
  | nil => exact steady_nil
  | cons d ds ih =>
    obtain ⟨first, others⟩ := List.forall_mem_cons.1 h
    cases ds with
    | nil => exact first
    | cons e ds => exact (first.append hs).append (ih others)

/-- Whether laying out a document adds nothing but blank space. -/
def Blank (d : Doc) : Prop :=
  ∀ width rest indent mode p after,
    (place width rest indent mode d p).chars.foldr ink after = p.chars.foldr ink after

theorem Blank.steady {d : Doc} (h : Blank d) : Steady d :=
  ⟨id, fun _ _ _ _ _ _ holds after => (h ..).trans (holds after)⟩

theorem blank_hardLine : Blank .hardLine :=
  fun _ _ indent _ p after => foldr_ink_endLine p indent after

/-- A line end adds blank space if it is blank when it is flat. -/
theorem blank_line {s : String} (blank : ∀ c ∈ s.toList, isInk c = false) : Blank (.line s) := by
  intro width rest indent mode p after
  cases mode with
  | flat => rw [place, Page.chars_write, List.foldr_append, foldr_ink_of_blank blank]
  | broken => exact foldr_ink_endLine p indent after

theorem blank_softSpace : Blank Doc.softSpace := blank_line (List.forall_mem_singleton.2 rfl)

theorem blank_softNothing : Blank Doc.softNothing := blank_line (List.forall_mem_nil _)

/-- A separator that is written in broken mode only is dropped before the closing mark. -/
theorem Steady.closed {inner edge : Doc} (h : Steady inner) (blank : Blank edge)
    (opening : String) (amount : Int) {separator closing : String}
    (drops : Drops separator closing) :
    Steady (.text opening ++ .nest amount (inner ++ .ifBroken (.text separator) .nil) ++ edge
      ++ .text closing) := by
  obtain ⟨inked, lays⟩ := h
  have content : Lays Inked (InkedBefore closing) inner inked :=
    lays.weaken fun _ _ holds after => holds _
  have separated : Lays (InkedBefore closing) (InkedBefore closing) (.text separator) id := by
    intro width rest indent mode p k holds after
    rw [place, Page.chars_write, List.foldr_append, drops]
    exact holds after
  have edged : Lays (InkedBefore closing) (InkedBefore closing) edge id :=
    fun _ _ _ _ _ _ holds after => (blank ..).trans (holds after)
  have shut : Lays (InkedBefore closing) Inked (.text closing) (closing.toList.foldr ink) := by
    intro width rest indent mode p k holds after
    rw [place, Page.chars_write, List.foldr_append]
    exact holds after
  exact ⟨_, (((lays_inked_text opening).append
    ((content.append (separated.ifBroken lays_nil)).nest amount)).append edged).append shut⟩

end ClientGen.Layout
