import ClientGen.Layout.Render

/-!
# What is on a page

The characters of a page (`Page.chars`) after a piece was written (`chars_write`) and after a line
was ended (`exists_chars_endLine`), which takes spaces away from its end and nothing else. So what
does not end in a space stays (`prefix_of_prefix_append_spaces`), and a page whose last piece does
not keeps all of its characters (`chars_endLine_of_tight`).

What laying out a document does to what can be said of a page, whatever the width, the indentation
and the mode are, is `Lays`. What is said of a page may refer to how characters are read that follow
it, so that a document changes both the page and that reading. There is one rule for each form of
documents.
-/

namespace ClientGen.Text

theorem exists_dropEndWhile (p : Char → Bool) (cs : List Char) :
    ∃ dropped, cs = dropEndWhile p cs ++ dropped ∧ ∀ c ∈ dropped, p c = true := by
  induction cs with
  | nil => exact ⟨[], rfl, nofun⟩
  | cons c rest ih =>
    obtain ⟨dropped, split, all⟩ := ih
    rw [dropEndWhile]
    cases kept : dropEndWhile p rest with
    | nil =>
      rw [kept, List.nil_append] at split
      dsimp only
      by_cases drops : p c = true
      · rw [if_pos drops, split]
        exact ⟨c :: dropped, rfl, List.forall_mem_cons.2 ⟨drops, all⟩⟩
      · rw [if_neg drops, split]
        exact ⟨dropped, rfl, all⟩
    | cons d ds =>
      refine ⟨dropped, ?_, all⟩
      rw [List.cons_append, ← kept, ← split]

theorem dropEndWhile_of_getLast {p : Char → Bool} {cs : List Char}
    (keeps : ∀ c ∈ cs.getLast?, p c = false) : dropEndWhile p cs = cs := by
  induction cs with
  | nil => rfl
  | cons c rest ih =>
    cases rest with
    | nil =>
      have kept : p c = false := keeps c rfl
      simp [dropEndWhile, kept]
    | cons d rest =>
      rw [dropEndWhile, ih fun e last => keeps e (by rw [List.getLast?_cons_cons]; exact last)]

@[simp] theorem toList_spaces (n : Nat) : (spaces n).toList = List.replicate n ' ' := by
  rw [spaces, String.toList_ofList]

end ClientGen.Text

namespace ClientGen.Layout.Page

/-- The characters on a page. -/
def chars (p : Page) : List Char := p.text.toList

theorem chars_eq (p : Page) : p.chars = p.pieces.reverse.flatMap String.toList := by
  rw [chars, text]
  induction p.pieces.reverse with
  | nil => rfl
  | cons s rest ih => rw [String.join_cons, String.toList_append, ih, List.flatMap_cons]

@[simp] theorem chars_write (p : Page) (s : String) : (p.write s).chars = p.chars ++ s.toList := by
  rw [chars_eq, chars_eq, write, List.reverse_cons, List.flatMap_append, List.flatMap_singleton]

/-- Ending a line takes away spaces at most, and then begins a new line with its indentation. -/
theorem exists_chars_endLine (p : Page) (indent : Int) :
    ∃ kept k, p.chars = kept ++ List.replicate k ' ' ∧
      (p.endLine indent).chars = kept ++ '\n' :: List.replicate indent.toNat ' ' := by
  obtain ⟨pieces, column⟩ := p
  cases pieces with
  | nil =>
    refine ⟨[], 0, rfl, ?_⟩
    rw [chars_eq, endLine]
    simp
  | cons s rest =>
    obtain ⟨dropped, split, all⟩ := Text.exists_dropEndWhile (· == ' ') s.toList
    have spaces : dropped = List.replicate dropped.length ' ' :=
      List.eq_replicate_of_mem fun c mem => beq_iff_eq.1 (all c mem)
    refine ⟨rest.reverse.flatMap String.toList ++ Text.dropEndWhile (· == ' ') s.toList,
      dropped.length, ?_, ?_⟩
    · rw [chars_eq, List.append_assoc, ← spaces, ← split]
      simp
    · rw [chars_eq, endLine]
      simp

/-- Characters that do not end in a space stand before the spaces that end a line. -/
theorem prefix_of_prefix_append_spaces {cs kept : List Char} {c : Char} (solid : c ≠ ' ') {k : Nat}
    (stays : cs ++ [c] <+: kept ++ List.replicate k ' ') : cs ++ [c] <+: kept := by
  induction k with
  | zero => rwa [List.replicate_zero, List.append_nil] at stays
  | succ k ih =>
    rw [List.replicate_succ', ← List.append_assoc, List.prefix_concat_iff] at stays
    rcases stays with whole | shorter
    · exact absurd (List.singleton_inj.1 (List.append_inj' whole rfl).2) solid
    · exact ih shorter

/-- Whether the last piece on a page does not end in a space. -/
def Tight (p : Page) : Prop := ∀ s ∈ p.pieces.head?, s.toList.getLast? ≠ some ' '

theorem chars_endLine_of_tight {p : Page} (tight : p.Tight) (indent : Int) :
    (p.endLine indent).chars = p.chars ++ '\n' :: List.replicate indent.toNat ' ' := by
  obtain ⟨pieces, column⟩ := p
  cases pieces with
  | nil =>
    rw [chars_eq, chars_eq, endLine]
    simp
  | cons s rest =>
    have kept : Text.dropEndWhile (· == ' ') s.toList = s.toList := by
      refine Text.dropEndWhile_of_getLast fun c last => beq_eq_false_iff_ne.2 ?_
      rintro rfl
      exact tight s rfl last
    rw [chars_eq, chars_eq, endLine]
    simp [kept]

theorem chars_endLine_write {s : String} (tight : s.toList.getLast? ≠ some ' ') (p : Page)
    (indent : Int) : ((p.write s).endLine indent).chars =
      p.chars ++ s.toList ++ '\n' :: List.replicate indent.toNat ' ' := by
  have kept : (p.write s).Tight := by
    rintro t ⟨⟩
    exact tight
  rw [chars_endLine_of_tight kept, chars_write]

end ClientGen.Layout.Page

namespace ClientGen.Layout

variable {α : Type} {P Q R : Page → (α → α) → Prop} {f g : α → α} {a b d : Doc}

/-! ### Rules for laying out -/

/-- Whether laying out a document leads from pages that satisfy `P` to pages that satisfy `Q`, where
what follows the document is first changed by `f`. -/
def Lays (P Q : Page → (α → α) → Prop) (d : Doc) (f : α → α) : Prop :=
  ∀ width rest indent mode p k, P p k → Q (place width rest indent mode d p) (k ∘ f)

theorem lays_nil : Lays P P .nil id := fun _ _ _ _ _ _ h => h

theorem Lays.append (ha : Lays P Q a f) (hb : Lays Q R b g) : Lays P R (a ++ b) (f ∘ g) :=
  fun width rest indent mode _ _ h => hb width rest indent mode _ _ (ha width _ indent mode _ _ h)

theorem Lays.nest (h : Lays P Q d f) (amount : Int) : Lays P Q (.nest amount d) f :=
  fun width rest indent mode => h width rest (indent + amount) mode

theorem Lays.group (h : Lays P Q d f) : Lays P Q (.group d) f := by
  intro width rest indent mode
  cases mode with
  | flat => exact h width rest indent .flat
  | broken => exact fun p => h width rest indent _ p

theorem Lays.ifBroken (hb : Lays P Q b f) (hf : Lays P Q d f) : Lays P Q (.ifBroken b d) f := by
  intro width rest indent mode
  cases mode with
  | flat => exact hf width rest indent .flat
  | broken => exact hb width rest indent .broken

/-- A line end that leads to the same both where it is flat and where it is not. -/
theorem lays_line {s : String} (flat : ∀ p k, P p k → Q (p.write s) (k ∘ f))
    (broken : ∀ p k indent, P p k → Q (p.endLine indent) (k ∘ f)) : Lays P Q (.line s) f := by
  intro width rest indent mode p k h
  cases mode with
  | flat => exact flat p k h
  | broken => exact broken p k indent h

/-- What is said of pages may be strengthened before a document. -/
theorem Lays.strengthen {P' : Page → (α → α) → Prop} (h : Lays P Q d f)
    (before : ∀ p k, P' p k → P p k) : Lays P' Q d f :=
  fun width rest indent mode p k holds => h width rest indent mode p k (before p k holds)

/-- What is said of pages may be weakened after a document. -/
theorem Lays.weaken {Q' : Page → (α → α) → Prop} (h : Lays P Q d f)
    (after : ∀ p k, Q p k → Q' p k) : Lays P Q' d f :=
  fun width rest indent mode p k holds => after _ _ (h width rest indent mode p k holds)

end ClientGen.Layout
