import ClientGen.Proofs.Layout.Page
import ClientGen.Proofs.TypeExpr.Parts
import ClientGen.Proofs.TypeExpr.Tokens

/-!
# The text of a type, read as words and marks

The text of a printable type consists of its words and marks at every width (`scan_text`). A page is
read from left to right, so what a document does to a page is what it puts in front of whatever is
read behind it (`Prints`). A word has to be followed by something else than a word, and lines end
only where the page does not end in a space: taking spaces away there would change what stands
inside of quotes.
-/

namespace ClientGen.TypeExpr

open Layout

/-! ### Pages that are read -/

/-- Whether the characters of a page, in front of what satisfies `Follows`, are read as `k` puts
them in front of what is read there. -/
def Reads (Follows : List Char → Prop) (p : Page) (k : List Token → List Token) : Prop :=
  ∀ rest, Follows rest → scan .outside (p.chars ++ rest) = k (scan .outside rest)

/-- Whether besides the page does not end in a space, so that a line may be ended on it. -/
def ReadsTight (Follows : List Char → Prop) (p : Page) (k : List Token → List Token) : Prop :=
  p.Tight ∧ Reads Follows p k

/-- Any characters. -/
def Anything (_ : List Char) : Prop := True

/-- Characters that do not go on with a word. -/
def NoWord (cs : List Char) : Prop := startsWord cs = false

/-- Characters that are read as a closing brace and what follows it. -/
def ClosingBrace (cs : List Char) : Prop :=
  NoWord cs ∧ ∃ after, scan .outside cs = .mark '\x7d' :: after

/-- Whether laying out a document, behind anything but an unfinished word, prints words and marks,
the last of which may be a word. -/
abbrev Prints (d : Doc) (f : List Token → List Token) : Prop :=
  Lays (Reads Anything) (ReadsTight NoWord) d f

variable {P : Page → (List Token → List Token) → Prop} {F F' : List Char → Prop}
  {s s' : String} {f g : List Token → List Token} {d : Doc}

theorem Reads.noWord {p : Page} {k : List Token → List Token} (h : Reads Anything p k) :
    Reads NoWord p k := fun rest _ => h rest trivial

theorem ReadsTight.noWord {p : Page} {k : List Token → List Token} (h : ReadsTight Anything p k) :
    ReadsTight NoWord p k := ⟨h.1, h.2.noWord⟩

/-! ### Text -/

/-- Whether text is read in front of everything in the same way. -/
def Marks (s : String) (f : List Token → List Token) : Prop :=
  ∀ rest, scan .outside (s.toList ++ rest) = f (scan .outside rest)

/-- Whether text does not go on with a word. -/
def Parts (s : String) : Prop := ∃ c rest, s.toList = c :: rest ∧ isWordChar c = false

theorem Parts.noWord (h : Parts s) (rest : List Char) : NoWord (s.toList ++ rest) := by
  obtain ⟨c, more, chars, noWord⟩ := h
  rw [chars]
  exact noWord

/-- Marks and gaps are read in front of everything in the same way. -/
theorem marks_of_all (h : s.toList.all (fun c => isMark c || isGap c) = true) :
    Marks s fun after => (s.toList.filter isMark).foldr putMark after := by
  intro rest
  simp only [List.all_eq_true, Bool.or_eq_true] at h
  dsimp only
  generalize s.toList = chars at h
  induction chars with
  | nil => rfl
  | cons c cs ih =>
    obtain ⟨first, others⟩ := List.forall_mem_cons.1 h
    rcases first with mark | gap
    · rw [List.cons_append, scan_mark mark, ih others, List.filter_cons_of_pos mark,
        List.foldr_cons]
    · have noMark : ¬isMark c = true := fun mark => by
        rw [not_isGap_of_isMark mark] at gap
        nomatch gap
      rw [List.cons_append, scan_gap gap, ih others, List.filter_cons_of_neg noMark]

theorem Marks.append (hs : Marks s f) (hs' : Marks s' g) : Marks (s ++ s') (f ∘ g) := by
  intro rest
  rw [String.toList_append, List.append_assoc, hs, hs']
  rfl

/-- A word is read as such in front of text that does not go on with it. -/
theorem marks_unit_append (unit : IsUnit s.toList) (h : Marks s' g) (parts : Parts s') :
    Marks (s ++ s') ((.word s.toList :: ·) ∘ g) := by
  intro rest
  rw [String.toList_append, List.append_assoc, scan_unit unit (parts.noWord rest), h]
  rfl

theorem lays_text
    (h : ∀ rest, F' rest →
      F (s.toList ++ rest) ∧ scan .outside (s.toList ++ rest) = f (scan .outside rest)) :
    Lays (Reads F) (Reads F') (.text s) f := by
  intro width rest indent mode p k reads after follows
  obtain ⟨before, read⟩ := h after follows
  rw [place, Page.chars_write, List.append_assoc, reads _ before, read]
  rfl

/-- Text that does not end in a space leaves the page without one. -/
theorem lays_tight (h : Lays P (Reads F) (.text s) f) (last : s.toList.getLast? ≠ some ' ') :
    Lays P (ReadsTight F) (.text s) f := by
  refine fun width rest indent mode p k holds => ⟨?_, h width rest indent mode p k holds⟩
  intro piece newest
  obtain rfl : s = piece := Option.some.inj newest
  exact last

theorem lays_marks (h : Marks s f) : Lays (Reads Anything) (Reads Anything) (.text s) f :=
  lays_text fun rest _ => ⟨trivial, h rest⟩

theorem lays_marks_of_parts (h : Marks s f) (parts : Parts s) :
    Lays (Reads NoWord) (Reads Anything) (.text s) f :=
  lays_text fun rest _ => ⟨parts.noWord rest, h rest⟩

theorem prints_unit (unit : IsUnit s.toList) : Prints (.text s) (.word s.toList :: ·) := by
  refine lays_tight ?_ unit.getLast_ne_space
  exact lays_text fun rest noWord => ⟨trivial, scan_unit unit noWord⟩

/-! ### Line ends -/

/-- Whether gaps may stand between what satisfies `F` and what satisfies `F'`. -/
def Gaps (F F' : List Char → Prop) : Prop :=
  ∀ gaps rest, gaps ≠ [] → (∀ c ∈ gaps, isGap c = true) → F' rest → F (gaps ++ rest)

theorem noWord_of_gaps {gaps : List Char} (nonempty : gaps ≠ [])
    (all : ∀ c ∈ gaps, isGap c = true) (rest : List Char) : NoWord (gaps ++ rest) := by
  cases gaps with
  | nil => exact absurd rfl nonempty
  | cons c gaps =>
    have gap := all c List.mem_cons_self
    show isWordChar c = false
    rw [isWordChar, gap]
    rfl

theorem scan_gaps {gaps : List Char} (all : ∀ c ∈ gaps, isGap c = true) (rest : List Char) :
    scan .outside (gaps ++ rest) = scan .outside rest := by
  induction gaps with
  | nil => rfl
  | cons c gaps ih =>
    obtain ⟨first, others⟩ := List.forall_mem_cons.1 all
    rw [List.cons_append, scan_gap first, ih others]

theorem gaps_anything : Gaps NoWord Anything :=
  fun _ rest nonempty all _ => noWord_of_gaps nonempty all rest

theorem gaps_closingBrace : Gaps ClosingBrace ClosingBrace := by
  rintro gaps rest nonempty all ⟨-, after, read⟩
  exact ⟨noWord_of_gaps nonempty all rest, after, (scan_gaps all rest).trans read⟩

theorem reads_endLine (gaps : Gaps F F') {p : Page} {k : List Token → List Token}
    (h : ReadsTight F p k) (indent : Int) : Reads F' (p.endLine indent) k := by
  have all : ∀ c ∈ '\n' :: List.replicate indent.toNat ' ', isGap c = true := by
    refine List.forall_mem_cons.2 ⟨rfl, fun c mem => ?_⟩
    rw [List.eq_of_mem_replicate mem]
    rfl
  intro rest follows
  rw [Page.chars_endLine_of_tight h.1, List.append_assoc,
    h.2 _ (gaps _ rest (List.cons_ne_nil _ _) all follows), scan_gaps all]

theorem lays_softSpace (gaps : Gaps F F') : Lays (ReadsTight F) (Reads F') Doc.softSpace id := by
  refine lays_line (fun p k h rest follows => ?_) fun p k indent h => reads_endLine gaps h indent
  have all : ∀ c ∈ " ".toList, isGap c = true := List.forall_mem_singleton.2 rfl
  rw [Page.chars_write, List.append_assoc, h.2 _ (gaps _ rest (by decide) all follows),
    scan_gaps all]
  rfl

theorem lays_hardLine (gaps : Gaps F F') : Lays (ReadsTight F) (Reads F') .hardLine id :=
  fun _ _ indent _ _ _ h => reads_endLine gaps h indent

/-! ### Lists -/

theorem Prints.loose (h : Prints d f) : Lays (Reads Anything) (Reads NoWord) d f :=
  h.weaken fun _ _ holds => holds.2

theorem Prints.after_marks (hs : Marks s g) (h : Prints d f) : Prints (.text s ++ d) (g ∘ f) :=
  (lays_marks hs).append h

/-- Marks that close what was opened, and leave the page without a space at its end. -/
theorem prints_closing (h : Lays (Reads Anything) (Reads NoWord) d f) (hs : Marks s g)
    (parts : Parts s) (last : s.toList.getLast? ≠ some ' ') : Prints (d ++ .text s) (f ∘ g) :=
  (h.append (lays_tight (lays_marks_of_parts hs parts) last)).weaken fun _ _ holds => holds.noWord

section

variable {α : Type} {docOf : α → Doc} {tokensOf : α → List Token → List Token} {xs : List α}

/-- A mark is read in front of items if it is in front of each of them. -/
theorem putMark_separated {c : Char}
    (marks : ∀ x ∈ xs, ∀ after, putMark c (tokensOf x after) = .mark c :: tokensOf x after)
    (nonempty : xs ≠ []) (after : List Token) :
    putMark c (separated c (xs.map tokensOf) after) =
      .mark c :: separated c (xs.map tokensOf) after := by
  cases xs with
  | nil => exact absurd rfl nonempty
  | cons x xs =>
    have first := marks x List.mem_cons_self
    cases xs with
    | nil => exact first _
    | cons y ys => exact first _

/-- Items with a separator between neighbours, which is a mark in front of each item. -/
theorem prints_intersperse {separator : Doc} {c : Char}
    (hs : Lays (ReadsTight NoWord) (Reads Anything) separator (putMark c))
    (h : ∀ x ∈ xs, Prints (docOf x) (tokensOf x))
    (marks : ∀ x ∈ xs, ∀ after, putMark c (tokensOf x after) = .mark c :: tokensOf x after)
    (nonempty : xs ≠ []) :
    Prints (Doc.intersperse separator (xs.map docOf)) (separated c (xs.map tokensOf)) := by
  induction xs with
  | nil => exact absurd rfl nonempty
  | cons x xs ih =>
    obtain ⟨first, others⟩ := List.forall_mem_cons.1 h
    obtain ⟨-, marksOthers⟩ := List.forall_mem_cons.1 marks
    cases xs with
    | nil => exact first
    | cons y ys =>
      have goesOn := (first.append hs).append (ih others marksOthers (List.cons_ne_nil y ys))
      have same : (tokensOf x ∘ putMark c) ∘ separated c ((y :: ys).map tokensOf) =
          separated c ((x :: y :: ys).map tokensOf) := by
        funext after
        exact congrArg (tokensOf x) (putMark_separated marksOthers (List.cons_ne_nil y ys) after)
      rw [← same]
      exact goesOn

/-- Items with a mark between neighbours that is no semicolon. -/
theorem prints_list {c : Char} (hs : Marks s (putMark c)) (parts : Parts s) (other : c ≠ ';')
    (h : ∀ x ∈ xs, Prints (docOf x) (tokensOf x)) (nonempty : xs ≠ []) :
    Prints (Doc.intersperse (.text s) (xs.map docOf)) (separated c (xs.map tokensOf)) := by
  refine prints_intersperse ?_ h (fun _ _ _ => putMark_of_ne other _) nonempty
  exact (lays_marks_of_parts hs parts).strengthen fun _ _ holds => holds.2

/-- Items behind an opening mark. There may be none. -/
theorem lays_opened {opening : String} (ho : Marks opening g) {c : Char}
    (hs : Marks s (putMark c)) (parts : Parts s) (other : c ≠ ';')
    (h : ∀ x ∈ xs, Prints (docOf x) (tokensOf x)) :
    Lays (Reads Anything) (Reads NoWord)
      (.text opening ++ Doc.intersperse (.text s) (xs.map docOf))
      (g ∘ separated c (xs.map tokensOf)) := by
  cases xs with
  | nil =>
    exact ((lays_marks ho).append lays_nil).weaken fun _ _ holds => holds.noWord
  | cons x xs =>
    exact ((prints_list hs parts other h (List.cons_ne_nil x xs)).after_marks ho).loose

/-! ### Blocks of members -/

/-- The semicolon behind the last member of a block is not read. -/
theorem foldr_putMark_eq_separated
    (marks : ∀ x ∈ xs, ∀ after, putMark ';' (tokensOf x after) = .mark ';' :: tokensOf x after)
    (nonempty : xs ≠ []) (after : List Token) :
    xs.foldr (fun x after => tokensOf x (putMark ';' after)) (.mark '\x7d' :: after) =
      separated ';' (xs.map tokensOf) (.mark '\x7d' :: after) := by
  induction xs with
  | nil => exact absurd rfl nonempty
  | cons x xs ih =>
    obtain ⟨-, marksOthers⟩ := List.forall_mem_cons.1 marks
    cases xs with
    | nil =>
      rw [List.foldr_cons, List.foldr_nil, putMark_closing]
      rfl
    | cons y ys =>
      rw [List.foldr_cons, ih marksOthers (List.cons_ne_nil y ys),
        putMark_separated marksOthers (List.cons_ne_nil y ys)]
      rfl

theorem marks_semicolon : Marks ";" (putMark ';') := fun _ => scan_mark rfl _

theorem marks_closingBrace : Marks "\x7d" (.mark '\x7d' :: ·) := fun _ => scan_mark rfl _

/-- A semicolon in front of a closing brace is not read. -/
theorem lays_semicolon_before_brace :
    Lays (ReadsTight ClosingBrace) (ReadsTight ClosingBrace) (.text ";") id := by
  have lays : Lays (Reads ClosingBrace) (Reads ClosingBrace) (.text ";") id := by
    refine lays_text ?_
    rintro rest ⟨-, after, read⟩
    have dropped : scan .outside (";".toList ++ rest) = scan .outside rest := by
      rw [marks_semicolon, read, putMark_closing]
    exact ⟨⟨rfl, after, dropped.trans read⟩, dropped⟩
  exact lays_tight (lays.strengthen fun _ _ holds => holds.2) (by decide)

theorem lays_closingBrace :
    Lays (Reads ClosingBrace) (ReadsTight NoWord) (.text "\x7d") (.mark '\x7d' :: ·) := by
  have lays : Lays (Reads ClosingBrace) (Reads Anything) (.text "\x7d") (.mark '\x7d' :: ·) :=
    lays_text fun rest _ =>
      ⟨⟨rfl, _, marks_closingBrace rest⟩, marks_closingBrace rest⟩
  exact (lays_tight lays (by decide)).weaken fun _ _ holds => holds.noWord

theorem lays_openingBrace :
    Lays (Reads Anything) (ReadsTight NoWord) (.text "\x7b") (.mark '\x7b' :: ·) := by
  have marks : Marks "\x7b" (.mark '\x7b' :: ·) := fun _ => scan_mark rfl _
  exact (lays_tight (lays_marks marks) (by decide)).weaken fun _ _ holds => holds.noWord

/-- A semicolon, after which the line may be ended. -/
theorem lays_semicolon :
    Lays (ReadsTight NoWord) (ReadsTight NoWord) (.text ";") (putMark ';') := by
  have lays := lays_tight (lays_marks_of_parts marks_semicolon ⟨_, _, rfl, rfl⟩) (by decide)
  exact (lays.strengthen fun _ _ holds => holds.2).weaken fun _ _ holds => holds.noWord

/-- Members that each have a line and a semicolon. -/
theorem lays_spread (h : ∀ x ∈ xs, Prints (docOf x) (tokensOf x)) :
    Lays (ReadsTight NoWord) (ReadsTight NoWord)
      (Doc.concat ((xs.map docOf).map fun m => .hardLine ++ m ++ .text ";"))
      fun after => xs.foldr (fun x after => tokensOf x (putMark ';' after)) after := by
  induction xs with
  | nil => exact lays_nil
  | cons x xs ih =>
    obtain ⟨first, others⟩ := List.forall_mem_cons.1 h
    exact (((lays_hardLine gaps_anything).append first).append lays_semicolon).append (ih others)

/-- A block of members, each of which begins with a word, is read in the same way whether it is
spread over lines or not. -/
theorem prints_memberBlock (h : ∀ x ∈ xs, Prints (docOf x) (tokensOf x))
    (words : ∀ x ∈ xs, ∀ after, ∃ cs more, tokensOf x after = .word cs :: more) (spread : Bool) :
    Prints (memberBlock (xs.map docOf) spread)
      fun after => .mark '\x7b' :: separated ';' (xs.map tokensOf) (.mark '\x7d' :: after) := by
  have marks : ∀ x ∈ xs, ∀ after,
      putMark ';' (tokensOf x after) = .mark ';' :: tokensOf x after := by
    intro x mem after
    obtain ⟨cs, more, word⟩ := words x mem after
    rw [word, putMark_word]
  rw [memberBlock]
  split
  · next empty =>
    obtain rfl : xs = [] := by simpa using empty
    have braces : Marks "\x7b\x7d" fun after => .mark '\x7b' :: .mark '\x7d' :: after :=
      fun _ => (scan_mark rfl _).trans (congrArg (putMark '\x7b') (scan_mark rfl _))
    exact (lays_tight (lays_marks braces) (by decide)).weaken fun _ _ holds => holds.noWord
  · next some =>
    have nonempty : xs ≠ [] := by rintro rfl; exact some rfl
    split
    · have block := ((lays_openingBrace.append ((lays_spread h).nest indentWidth)).append
        (lays_hardLine gaps_anything)).append (lays_tight (lays_marks marks_closingBrace)
          (by decide))
      have same : ((((Token.mark '\x7b' :: ·) ∘ fun after =>
          xs.foldr (fun x after => tokensOf x (putMark ';' after)) after) ∘ id) ∘
          (Token.mark '\x7d' :: ·)) = fun after =>
          .mark '\x7b' :: separated ';' (xs.map tokensOf) (.mark '\x7d' :: after) := by
        funext after
        exact congrArg (Token.mark '\x7b' :: ·) (foldr_putMark_eq_separated marks nonempty after)
      rw [← same]
      exact block.weaken fun _ _ holds => holds.noWord
    · have separator := lays_semicolon.append (lays_softSpace gaps_anything)
      have members := prints_intersperse separator h marks nonempty
      have last : Lays (ReadsTight NoWord) (ReadsTight ClosingBrace)
          (.ifBroken (.text ";") .nil) id :=
        (lays_semicolon_before_brace.ifBroken lays_nil).strengthen
          fun _ _ holds => ⟨holds.1, fun rest closing => holds.2 rest closing.1⟩
      exact (((lays_openingBrace.append (((((lays_softSpace gaps_anything).append
        members).append last)).nest indentWidth)).append
        (lays_softSpace gaps_closingBrace)).append lays_closingBrace).group

end

/-! ### Types -/

/-- Whether the parts of a type can be told apart in print: a union and an intersection have several
members, names are words, a literal is a word or a quoted text, and no name of a property has a line
end. Identifiers are words, and so are the numbers and the constants of JSON. -/
def IsPrintable : TypeExpr → Prop
  | ref name _ => IsWord name.toList
  | generic name => IsWord name.toList
  | literal text => IsUnit text.toList
  | union members => 2 ≤ members.length
  | inter members => 2 ≤ members.length
  | function arguments _ => ∀ a ∈ arguments, IsWord a.name.toList
  | object members => ∀ m ∈ members, '\n' ∉ m.name.toList
  | index key _ => IsWord key.toList
  | _ => True

/-- Whether a type and all that stand in it are printable. -/
def Printable (t : TypeExpr) : Prop := Everywhere IsPrintable t

theorem isWord_keyword (p : Primitive) : IsWord p.keyword.toList := by
  cases p <;> decide

theorem marks_comma : Marks ", " (putMark ',') := marks_of_all (by decide)

theorem marks_typeMark (isOptional : Bool) :
    Marks (if isOptional then "?: " else ": ") (typeMark isOptional) := by
  cases isOptional with
  | false => exact marks_of_all (by decide)
  | true => exact marks_of_all (by decide)

theorem parts_typeMark (isOptional : Bool) : Parts (if isOptional then "?: " else ": ") := by
  cases isOptional with
  | false => exact ⟨_, _, rfl, rfl⟩
  | true => exact ⟨_, _, rfl, rfl⟩

theorem marks_memberHead {name : String} (noBreak : '\n' ∉ name.toList)
    (isOptional isReadonly : Bool) :
    Marks (memberHead name isOptional isReadonly) (keyTokens name isOptional isReadonly) := by
  have key := marks_unit_append (isUnit_propertyKey noBreak) (marks_typeMark isOptional)
    (parts_typeMark isOptional)
  cases isReadonly with
  | false =>
    rw [memberHead, String.append_assoc]
    exact key
  | true =>
    have space : Marks " " id := marks_of_all (by decide)
    have word : IsUnit "readonly".toList := .inl (by decide)
    have front := marks_unit_append word space ⟨_, _, rfl, rfl⟩
    rw [memberHead, String.append_assoc]
    exact front.append key

theorem marks_indexHead {key : String} (word : IsWord key.toList) :
    Marks (indexHead key) fun after => .mark '[' :: .word "key".toList :: .mark ':'
      :: .word key.toList :: .mark ']' :: .mark ':' :: after := by
  have opening : Marks "[" (.mark '[' :: ·) := marks_of_all (by decide)
  have colon : Marks ": " (.mark ':' :: ·) := marks_of_all (by decide)
  have closing : Marks "]: " fun after => .mark ']' :: .mark ':' :: after :=
    marks_of_all (by decide)
  have name : IsUnit "key".toList := .inl (by decide)
  have front := opening.append (marks_unit_append name colon ⟨_, _, rfl, rfl⟩)
  have head : indexHead key = ("[" ++ ("key" ++ ": ")) ++ (key ++ "]: ") := by
    have first : "[" ++ ("key" ++ ": ") = "[key: " := by decide
    rw [first, ← String.append_assoc]
    rfl
  rw [head]
  exact front.append (marks_unit_append (.inl word) closing ⟨_, _, rfl, rfl⟩)

theorem prints_parenthesized (h : Prints d f) (needed : Bool) :
    Prints (parenthesized needed d) (inParentheses needed f) := by
  cases needed with
  | false => exact h
  | true =>
    have opening : Marks "(" (.mark '(' :: ·) := marks_of_all (by decide)
    have closing : Marks ")" (.mark ')' :: ·) := marks_of_all (by decide)
    have closed := prints_closing (h.after_marks opening).loose closing ⟨_, _, rfl, rfl⟩
      (by decide)
    exact closed

theorem prints_argumentDoc {a : Argument TypeExpr} (word : IsWord a.name.toList)
    (h : Prints a.type.doc (tokens a.type)) : Prints (argumentDoc a) (argumentTokens a) :=
  ((prints_unit (.inl word)).loose.append
    (lays_marks_of_parts (marks_typeMark a.isOptional) (parts_typeMark a.isOptional))).append h

theorem prints_memberDoc {m : Member TypeExpr} (noBreak : '\n' ∉ m.name.toList)
    (h : Prints m.type.doc (tokens m.type)) : Prints (memberDoc m) (memberTokens m) :=
  h.after_marks (marks_memberHead noBreak m.isOptional m.isReadonly)

theorem exists_memberTokens (m : Member TypeExpr) (after : List Token) :
    ∃ cs more, memberTokens m after = .word cs :: more := by
  rw [memberTokens, keyTokens]
  split
  · exact ⟨_, _, rfl⟩
  · exact ⟨_, _, rfl⟩

theorem ne_nil_of_two_le {ts : List TypeExpr} (several : 2 ≤ ts.length) : ts ≠ [] := by
  rintro rfl
  nomatch several

/-- Laying out a printable type prints its words and marks. -/
theorem prints_doc {t : TypeExpr} (printable : Printable t) : Prints t.doc (tokens t) := by
  induction t using inductionOnChildren with
  | step t ih =>
  obtain ⟨here, below⟩ := everywhere_iff.1 printable
  have parts : ∀ u ∈ t.children, Prints u.doc (tokens u) := fun u mem => ih u mem (below u mem)
  have angle : Marks "<" (.mark '<' :: ·) := marks_of_all (by decide)
  have closingAngle : Marks ">" (.mark '>' :: ·) := marks_of_all (by decide)
  cases t with
  | primitive p => exact prints_unit (.inl (isWord_keyword p))
  | generic name => exact prints_unit (.inl here)
  | literal text => exact prints_unit here
  | ref name arguments =>
    cases arguments with
    | nil => exact prints_unit (.inl here)
    | cons a as =>
      have opened := lays_opened (marks_unit_append (.inl here) angle ⟨_, _, rfl, rfl⟩) marks_comma
        ⟨_, _, rfl, rfl⟩ (by decide) parts
      have closed := prints_closing opened closingAngle ⟨_, _, rfl, rfl⟩ (by decide)
      rw [doc, ← docs, docs_eq, tokens_ref]
      exact closed
  | array element =>
    have word : IsUnit "Array".toList := .inl (by decide)
    have opening := marks_unit_append word angle ⟨_, _, rfl, rfl⟩
    have name : "Array" ++ "<" = "Array<" := by decide
    rw [name] at opening
    have opened := (parts element List.mem_cons_self).after_marks opening
    have closed := prints_closing opened.loose closingAngle ⟨_, _, rfl, rfl⟩ (by decide)
    exact closed
  | tuple elements =>
    have opening : Marks "[" (.mark '[' :: ·) := marks_of_all (by decide)
    have closing : Marks "]" (.mark ']' :: ·) := marks_of_all (by decide)
    have opened := lays_opened opening marks_comma ⟨_, _, rfl, rfl⟩ (by decide) parts
    have closed := prints_closing opened closing ⟨_, _, rfl, rfl⟩ (by decide)
    rw [doc, docs_eq, tokens_tuple]
    exact closed
  | union members =>
    have bar : Marks " | " (putMark '|') := marks_of_all (by decide)
    rw [doc, unionDocs_eq, tokens_union]
    exact prints_list bar ⟨_, _, rfl, rfl⟩ (by decide)
      (fun u mem => prints_parenthesized (parts u mem) u.wrapsInUnion) (ne_nil_of_two_le here)
  | inter members =>
    have ampersand : Marks " & " (putMark '&') := marks_of_all (by decide)
    rw [doc, interDocs_eq, tokens_inter]
    exact prints_list ampersand ⟨_, _, rfl, rfl⟩ (by decide)
      (fun u mem => prints_parenthesized (parts u mem) u.wrapsInInter) (ne_nil_of_two_le here)
  | function arguments result =>
    have opening : Marks "(" (.mark '(' :: ·) := marks_of_all (by decide)
    have arrow : Marks ") => " fun after => .mark ')' :: .mark '=' :: .mark '>' :: after :=
      marks_of_all (by decide)
    have argument : ∀ a ∈ arguments, Prints (argumentDoc a) (argumentTokens a) := fun a mem =>
      prints_argumentDoc (here a mem)
        (parts a.type (List.mem_append_left _ (List.mem_map_of_mem mem)))
    have returned : Prints (resultDoc result) (tokensOfResult result) := by
      cases result with
      | none => exact prints_unit (.inl (isWord_keyword .void))
      | some t => exact parts t (List.mem_append_right _ List.mem_cons_self)
    have opened := lays_opened opening marks_comma ⟨_, _, rfl, rfl⟩ (by decide) argument
    rw [doc, argumentDocs_eq, tokens_function]
    exact (opened.append (lays_marks_of_parts arrow ⟨_, _, rfl, rfl⟩)).append returned
  | object members =>
    rw [doc, memberDocs_eq, tokens_object]
    exact prints_memberBlock (fun m mem =>
      prints_memberDoc (here m mem) (parts m.type (List.mem_map_of_mem mem)))
      (fun m _ => exists_memberTokens m) _
  | index key value =>
    have opening : Marks "\x7b " (.mark '\x7b' :: ·) := marks_of_all (by decide)
    have closing : Marks " \x7d" (.mark '\x7d' :: ·) := marks_of_all (by decide)
    have member := (parts value List.mem_cons_self).after_marks (marks_indexHead here)
    have closed := prints_closing (member.after_marks opening).loose closing ⟨_, _, rfl, rfl⟩
      (by decide)
    exact closed

/-- The text of a printable type consists of its words and marks, at every width. -/
theorem scan_text {t : TypeExpr} (printable : Printable t) (width : Int) :
    scan .outside (t.text width).toList = tokens t [] := by
  have start : Reads Anything ⟨[], 0⟩ id := fun _ _ => rfl
  obtain ⟨-, reads⟩ := prints_doc printable width [] 0 .broken ⟨[], 0⟩ id start
  have read := reads [] rfl
  rw [List.append_nil] at read
  exact read

end ClientGen.TypeExpr
