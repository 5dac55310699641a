import ClientGen.Proofs.Layout.Page
import ClientGen.Proofs.Name.Spelling
import ClientGen.Proofs.Source.Banner

/-!
# Documentation stays in its comment

Documentation is text of a document, of any kind, that is written into comments.

* **A block comment ends where its text ends** (`isBlockComment_blockComment`): behind the
  indentation and the opening mark, no end of a comment stands before the last two characters.
  Only blank documentation has no comment.
* **Every line of a line comment is marked** (`isMarked_lineComments`), whichever lines the
  documentation has. Here blank documentation has a comment, of one empty line; only empty
  documentation has none.

An end of a comment is broken inside each line (`unended_breakCommentEnds`). None comes about where
a line meets the frame, as a space or a line feed stands on each border (`unended_append_cons_iff`),
or when blank space is left out at the end of a line (`Unended.of_prefix`).
-/

namespace ClientGen.Source

/-! ### Characters without the end of a comment -/

/-- Whether no block comment ends among characters. -/
def Unended (cs : List Char) : Prop := ¬['*', '/'] <:+: cs

/-- Whether a character cannot be part of the end of a block comment. -/
def IsNeutral (c : Char) : Prop := c ≠ '*' ∧ c ≠ '/'

theorem isNeutral_space : IsNeutral ' ' := ⟨by decide, by decide⟩

theorem isNeutral_lineFeed : IsNeutral '\n' := ⟨by decide, by decide⟩

theorem unended_nil : Unended [] := by simp [Unended]

theorem unended_cons_iff {c : Char} {cs : List Char} :
    Unended (c :: cs) ↔ ¬(c = '*' ∧ cs.head? = some '/') ∧ Unended cs := by
  have here : ['*', '/'] <+: c :: cs ↔ c = '*' ∧ cs.head? = some '/' := by
    cases cs <;> simp [List.cons_prefix_cons, eq_comm]
  rw [Unended, Unended, List.infix_cons_iff, here, not_or]

theorem Unended.of_prefix {cs ds : List Char} (h : Unended ds) (front : cs <+: ds) : Unended cs :=
  fun ended => h (ended.trans front.isInfix)

/-- Around a neutral character, nothing comes about that is not on one of its sides. -/
theorem unended_append_cons_iff {c : Char} (neutral : IsNeutral c) (cs ds : List Char) :
    Unended (cs ++ c :: ds) ↔ Unended cs ∧ Unended ds := by
  induction cs with
  | nil => simp [unended_cons_iff, neutral.1, unended_nil]
  | cons d cs ih =>
    have next : (cs ++ c :: ds).head? = some '/' ↔ cs.head? = some '/' := by
      cases cs <;> simp [neutral.2]
    rw [List.cons_append, unended_cons_iff, unended_cons_iff, next, ih, and_assoc]

theorem unended_indent_iff (indent : Nat) (cs : List Char) :
    Unended (List.replicate indent ' ' ++ cs) ↔ Unended cs := by
  induction indent with
  | zero => rfl
  | succ n ih =>
    rw [List.replicate_succ, List.cons_append, unended_cons_iff, ih]
    simp

theorem unended_unlines {ls : List String} (all : ∀ l ∈ ls, Unended l.toList) :
    Unended (Text.unlines ls).toList := by
  induction ls with
  | nil => exact unended_nil
  | cons l ls ih =>
    obtain ⟨first, rest⟩ := List.forall_mem_cons.1 all
    by_cases last : ls = []
    · subst last
      rwa [Text.unlines, String.intercalate_singleton]
    · have text : (Text.unlines (l :: ls)).toList = l.toList ++ '\n' :: (Text.unlines ls).toList := by
        rw [Text.unlines, String.intercalate_cons_of_ne_nil last]
        simp [Text.unlines]
      rw [text, unended_append_cons_iff isNeutral_lineFeed]
      exact ⟨first, ih rest⟩

theorem prefix_dropEndWhile (p : Char → Bool) (cs : List Char) : Text.dropEndWhile p cs <+: cs := by
  obtain ⟨dropped, split, -⟩ := Text.exists_dropEndWhile p cs
  exact ⟨dropped, split.symm⟩

theorem unended_trimEnd {s : String} (h : Unended s.toList) : Unended (Text.trimEnd s).toList := by
  rw [Text.trimEnd, String.toList_ofList]
  exact h.of_prefix (prefix_dropEndWhile _ _)

theorem head?_breakCommentEnds (cs : List Char) : (breakCommentEnds cs).head? = cs.head? := by
  unfold breakCommentEnds
  split <;> rfl

theorem unended_breakCommentEnds (cs : List Char) : Unended (breakCommentEnds cs) := by
  fun_induction breakCommentEnds cs with
  | case1 rest ih => simp [unended_cons_iff, ih]
  | case2 c rest whole ih =>
    rw [unended_cons_iff, head?_breakCommentEnds]
    refine ⟨?_, ih⟩
    rintro ⟨rfl, next⟩
    obtain ⟨after, rfl⟩ := List.head?_eq_some_iff.1 next
    exact whole after rfl rfl
  | case3 => exact unended_nil

theorem unended_of_mem_commentLines {documentation line : String}
    (mem : line ∈ commentLines documentation) : Unended line.toList := by
  obtain ⟨raw, -, rfl⟩ := List.mem_map.1 mem
  rw [String.toList_ofList]
  exact unended_breakCommentEnds _

/-! ### Block comments -/

/-- Whether a text is a block comment behind an indentation: the comment ends where the text does
and nowhere before. -/
def IsBlockComment (indent : Nat) (s : String) : Prop :=
  ∃ inner : String, s = Text.spaces indent ++ "/**" ++ inner ++ "*/" ∧
    Unended ("/**" ++ inner ++ "*").toList

theorem unended_single {line : String} (h : Unended line.toList) :
    Unended ("/**" ++ (" " ++ line ++ " ") ++ "*").toList := by
  have text : ("/**" ++ (" " ++ line ++ " ") ++ "*").toList =
      "/**".toList ++ ' ' :: (line.toList ++ ' ' :: "*".toList) := by simp
  rw [text, unended_append_cons_iff isNeutral_space, unended_append_cons_iff isNeutral_space]
  exact ⟨by simp [unended_cons_iff, unended_nil], h, by simp [unended_cons_iff, unended_nil]⟩

theorem unended_item (indent : Nat) {line : String} (h : Unended line.toList) :
    Unended (Text.trimEnd (Text.spaces indent ++ " * " ++ line)).toList := by
  apply unended_trimEnd
  have text : (Text.spaces indent ++ " * " ++ line).toList =
      List.replicate indent ' ' ++ ([' ', '*'] ++ ' ' :: line.toList) := by simp
  rw [text, unended_indent_iff, unended_append_cons_iff isNeutral_space]
  exact ⟨by simp [unended_cons_iff, unended_nil], h⟩

theorem unended_several (indent : Nat) {body : String} (h : Unended body.toList) :
    Unended ("/**" ++ ("\n" ++ body ++ "\n" ++ Text.spaces indent ++ " ") ++ "*").toList := by
  have text : ("/**" ++ ("\n" ++ body ++ "\n" ++ Text.spaces indent ++ " ") ++ "*").toList =
      "/**".toList ++ '\n' :: (body.toList ++
        '\n' :: (List.replicate indent ' ' ++ " *".toList)) := by simp
  rw [text, unended_append_cons_iff isNeutral_lineFeed, unended_append_cons_iff isNeutral_lineFeed,
    unended_indent_iff]
  exact ⟨by simp [unended_cons_iff, unended_nil], h, by simp [unended_cons_iff, unended_nil]⟩

/-- The text of a comment is in one of two frames: on one line, or on lines of its own. -/
theorem isBlockComment_blockComment {documentation : String}
    (text : Text.allBlank documentation = false) (indent : Nat) :
    IsBlockComment indent (blockComment documentation indent) := by
  have unended : ∀ line ∈ commentLines documentation, Unended line.toList :=
    fun _ => unended_of_mem_commentLines
  unfold blockComment
  rw [text, if_neg Bool.false_ne_true]
  dsimp only
  split
  · next line one =>
    rw [one, List.forall_mem_singleton] at unended
    exact ⟨" " ++ line ++ " ", String.toList_injective (by simp), unended_single unended⟩
  · exact ⟨_, String.toList_injective (by simp), unended_several indent <| unended_unlines <|
      List.forall_mem_map.2 fun line mem => unended_item indent (unended line mem)⟩

/-! ### Line comments -/

/-- Blank space is left out behind the mark of a line, which stays. -/
theorem prefix_dropEndWhile_append {front : List Char}
    (keeps : ∀ c ∈ front.getLast?, Text.isBlank c = false) (cs : List Char) :
    front <+: Text.dropEndWhile Text.isBlank (front ++ cs) := by
  rw [dropEndWhile_append]
  split
  · exact ⟨[], by rw [List.append_nil, Text.dropEndWhile_of_getLast keeps]⟩
  · exact List.prefix_append _ _

/-- A line that is put in a line comment. -/
def commentedLine (indent : Nat) (raw : String) : String :=
  Text.trimEnd (Text.spaces indent ++
    (if isBullet (Text.trim raw) then "///   " else "/// ") ++ Text.trim raw)

theorem toList_commentedLine (indent : Nat) (raw : String) :
    ∃ gap : List Char, '\n' ∉ gap ∧ (commentedLine indent raw).toList =
      Text.dropEndWhile Text.isBlank
        ((Text.spaces indent ++ "///").toList ++ (gap ++ (Text.trim raw).toList)) := by
  unfold commentedLine
  split
  · exact ⟨"   ".toList, by decide, by simp [Text.trimEnd]⟩
  · exact ⟨" ".toList, by decide, by simp [Text.trimEnd]⟩

theorem prefix_commentedLine (indent : Nat) (raw : String) :
    (Text.spaces indent ++ "///").toList <+: (commentedLine indent raw).toList := by
  obtain ⟨gap, -, text⟩ := toList_commentedLine indent raw
  rw [text]
  refine prefix_dropEndWhile_append ?_ _
  have last : (Text.spaces indent ++ "///").toList.getLast? = some '/' := by simp
  rw [last]
  rintro _ ⟨⟩
  decide

theorem lineFeed_not_mem_commentedLine (indent : Nat) {raw : String} (one : '\n' ∉ raw.toList) :
    '\n' ∉ (commentedLine indent raw).toList := by
  obtain ⟨gap, inGap, text⟩ := toList_commentedLine indent raw
  have inside : '\n' ∉ (Text.trim raw).toList := by
    rw [Text.trim, String.toList_ofList]
    exact fun mem => one <| List.dropWhile_subset _ ((prefix_dropEndWhile _ _).subset mem)
  rw [text]
  intro mem
  have mem := (prefix_dropEndWhile _ _).subset mem
  simp [inGap, inside] at mem

theorem isMarked_lineComments {documentation : String} (some : documentation ≠ "") (indent : Nat) :
    IsMarked (· == '\n') (Text.spaces indent ++ "///") (lineComments documentation indent) := by
  have lines : lineComments documentation indent =
      Text.unlines ((Text.lines (Text.trim documentation)).map (commentedLine indent)) := by
    rw [lineComments, if_neg (by simpa using some)]
    rfl
  have filled : (Text.lines (Text.trim documentation)).map (commentedLine indent) ≠ [] := by
    simp [Text.lines, Text.splitAt, Text.splitWhere_ne_nil]
  rw [IsMarked, lines, linesBy_unlines endsLines_lineFeed filled, List.flatMap_map]
  intro line mem
  obtain ⟨raw, listed, mem⟩ := List.mem_flatMap.1 mem
  have one : '\n' ∉ raw.toList := by
    obtain ⟨piece, cut, rfl⟩ := List.mem_map.1 listed
    rw [String.toList_ofList]
    intro here
    exact absurd (Name.not_of_mem_splitWhere cut here) (by decide)
  rw [linesBy, Text.splitWhere_of_not_mem (lineFeed_not_mem_commentedLine indent one),
    List.mem_singleton] at mem
  rw [mem]
  exact prefix_commentedLine indent raw

/-- **Documentation stays in its comment**: it has no block comment if it is blank, else one that
ends only at its end; it has no line comment if it is empty, else one that is marked in each of its
lines. -/
theorem comments_of_documentation (documentation : String) (indent : Nat) :
    (Text.allBlank documentation = true ∧ blockComment documentation indent = "" ∨
      Text.allBlank documentation = false ∧
        IsBlockComment indent (blockComment documentation indent)) ∧
    (documentation = "" ∧ lineComments documentation indent = "" ∨
      documentation ≠ "" ∧
        IsMarked (· == '\n') (Text.spaces indent ++ "///") (lineComments documentation indent)) := by
  constructor
  · cases text : Text.allBlank documentation with
    | true => exact .inl ⟨rfl, if_pos text⟩
    | false => exact .inr ⟨rfl, isBlockComment_blockComment text indent⟩
  · by_cases none : documentation = ""
    · subst none
      exact .inl ⟨rfl, rfl⟩
    · exact .inr ⟨none, isMarked_lineComments none indent⟩

/-- An end in the text is broken, and the star that ends a line meets no slash. -/
example : blockComment "Globs **/*.\n*" 2 = "  /**\n   * Globs **\\/*.\n   * *\n   */" := by
  decide +kernel

end ClientGen.Source
