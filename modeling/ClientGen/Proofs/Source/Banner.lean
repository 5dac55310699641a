import ClientGen.Crate.Files
import ClientGen.Package.RuntimeModule
import ClientGen.Proofs.Lists.Pointwise
import ClientGen.Proofs.Source.Literals
import ClientGen.Proofs.Text.Length

/-!
# Banners as comments

A banner is put in comments line by line, but the title and the version of a document are put on one
line as they are. So a banner is a comment as long as no line ends in them.

* **Every line of a banner is a comment exactly if every line that begins in the heading is marked
  like one** (`banner_marked`): all lines but the first.
* The run-time module and the root module of a crate have the code that they have without a title
  exactly under this condition. A line ends at more characters in TypeScript than in Rust, where a
  carriage return does not end a comment.
* The second line of a title is code (`title_is_code`).
-/

namespace ClientGen.Source

/-! ### Lines of a source text -/

/-- The lines of a text, where a character may end a line. -/
def linesBy (ends : Char → Bool) (s : String) : List (List Char) :=
  Text.splitWhere ends s.toList

/-- Whether a character is a printable one of ASCII. -/
def isPrintable (c : Char) : Bool := 32 ≤ c.toNat && c.toNat < 127

/-- Whether a line feed ends a line and no printable character does. -/
structure EndsLines (ends : Char → Bool) : Prop where
  lineFeed : ends '\n' = true
  printable : ∀ c, isPrintable c = true → ends c = false

theorem beq_eq_false_of_isPrintable {c d : Char} (printable : isPrintable c = true)
    (control : isPrintable d = false) : (c == d) = false := by
  rw [beq_eq_false_iff_ne]
  rintro rfl
  rw [printable] at control
  cases control

theorem endsLines_lineFeed : EndsLines (· == '\n') where
  lineFeed := rfl
  printable := fun _ printable => beq_eq_false_of_isPrintable printable rfl

theorem endsLines_script : EndsLines endsScriptLine where
  lineFeed := rfl
  printable := by
    intro c printable
    have other {d : Char} (control : isPrintable d = false) : (c == d) = false :=
      beq_eq_false_of_isPrintable printable control
    rw [endsScriptLine, other (d := '\n') rfl, other (d := '\r') rfl, other (d := '\u2028') rfl,
      other (d := '\u2029') rfl]
    rfl

section Lines

variable {ends : Char → Bool} (endsLines : EndsLines ends)

theorem splitWhere_append_of_forall {cs : List Char} (noEnd : ∀ c ∈ cs, ends c = false)
    (ds : List Char) :
    ∃ line others, Text.splitWhere ends ds = line :: others ∧
      Text.splitWhere ends (cs ++ ds) = (cs ++ line) :: others := by
  induction cs with
  | nil =>
    obtain ⟨line, others, split⟩ := List.exists_cons_of_ne_nil (Text.splitWhere_ne_nil ends ds)
    exact ⟨line, others, split, split⟩
  | cons c cs ih =>
    obtain ⟨first, rest⟩ := List.forall_mem_cons.1 noEnd
    obtain ⟨line, others, split, splits⟩ := ih rest
    refine ⟨line, others, split, ?_⟩
    rw [List.cons_append, Text.splitWhere, first, splits]
    rfl

include endsLines

theorem linesBy_append_break (s t : String) :
    linesBy ends (s ++ "\n" ++ t) = linesBy ends s ++ linesBy ends t := by
  have text : (s ++ "\n" ++ t).toList = s.toList ++ '\n' :: t.toList := by simp
  rw [linesBy, text]
  exact Text.splitWhere_append_cons endsLines.lineFeed _ _

theorem linesBy_unlines {ls : List String} (some : ls ≠ []) :
    linesBy ends (Text.unlines ls) = ls.flatMap (linesBy ends) := by
  induction ls with
  | nil => exact absurd rfl some
  | cons l ls ih =>
    by_cases last : ls = []
    · subst last
      rw [Text.unlines, String.intercalate_singleton, List.flatMap_singleton]
    · rw [Text.unlines, String.intercalate_cons_of_ne_nil last, ← Text.unlines,
        linesBy_append_break endsLines, ih last, List.flatMap_cons]

theorem linesBy_of_printable {s : String} (printable : s.toList.all isPrintable = true) :
    linesBy ends s = [s.toList] :=
  Text.splitWhere_of_forall fun c mem => endsLines.printable c (List.all_eq_true.1 printable c mem)

end Lines

/-! ### The lines of a banner -/

/-- The title and the version of a document on one line. Blank space behind a version is left
out. -/
def heading (title version : String) : String :=
  if version.isEmpty then title else Text.trimEnd (title ++ " " ++ version)

/-- The lines that begin in the heading of a banner: all but the first. -/
def headingLines (ends : Char → Bool) (title version : String) : List (List Char) :=
  if title.isEmpty then [] else (linesBy ends (heading title version)).tail

/-- Whether all lines of a text are marked as comments. -/
def IsMarked (ends : Char → Bool) (mark s : String) : Prop :=
  ∀ line ∈ linesBy ends s, mark.toList <+: line

/-- The line of the title in a banner. -/
def titleLine (mark title version : String) : String :=
  if version.isEmpty then mark ++ " " ++ title
  else Text.trimEnd (mark ++ " " ++ title ++ " " ++ version)

theorem banner_eq {style : CommentStyle} (marked : style ≠ .markup) (title version : String) :
    banner title version style = Text.unlines (notice.map (style.mark ++ " " ++ ·) ++
      if title.isEmpty then [] else [style.mark, titleLine style.mark title version]) := by
  have lines : (if title.isEmpty then []
      else if version.isEmpty then [style.mark, style.mark ++ " " ++ title]
      else [style.mark, Text.trimEnd (style.mark ++ " " ++ title ++ " " ++ version)]) =
      if title.isEmpty then [] else [style.mark, titleLine style.mark title version] := by
    rw [titleLine]
    split
    · rfl
    · split <;> rfl
  cases style with
  | markup => exact absurd rfl marked
  | slashes => exact congrArg (fun ls => Text.unlines (_ ++ ls)) lines
  | hash => exact congrArg (fun ls => Text.unlines (_ ++ ls)) lines

theorem dropEndWhile_append (p : Char → Bool) (cs ds : List Char) :
    Text.dropEndWhile p (cs ++ ds) =
      if Text.dropEndWhile p ds = [] then Text.dropEndWhile p cs
      else cs ++ Text.dropEndWhile p ds := by
  induction cs with
  | nil =>
    split
    · next none => exact none
    · rfl
  | cons c cs ih =>
    rw [List.cons_append, Text.dropEndWhile, ih]
    by_cases none : Text.dropEndWhile p ds = []
    · rw [if_pos none, if_pos none, Text.dropEndWhile]
    · rw [if_neg none, if_neg none]
      cases kept : cs ++ Text.dropEndWhile p ds with
      | nil => exact absurd (List.append_eq_nil_iff.1 kept).2 none
      | cons d rest => rw [List.cons_append, kept]

theorem isPrintable_mark (style : CommentStyle) : style.mark.toList.all isPrintable = true := by
  cases style <;> decide

theorem isPrintable_notice : ∀ l ∈ notice, l.toList.all isPrintable = true := by decide +kernel

section Banner

variable {ends : Char → Bool} (endsLines : EndsLines ends) {style : CommentStyle}
  (marked : style ≠ .markup) (title version : String)

variable (style) in
/-- The line of the title is the mark alone, or the heading behind it. -/
theorem toList_titleLine_cases :
    heading title version = "" ∧ (titleLine style.mark title version).toList = style.mark.toList ∨
      (titleLine style.mark title version).toList =
        (style.mark.toList ++ [' ']) ++ (heading title version).toList := by
  unfold titleLine heading
  split
  · exact .inr (by simp)
  · have text : (style.mark ++ " " ++ title ++ " " ++ version).toList =
        (style.mark.toList ++ [' ']) ++ (title ++ " " ++ version).toList := by simp
    rw [Text.trimEnd, Text.trimEnd, String.toList_ofList, String.toList_ofList, text,
      dropEndWhile_append]
    split
    · next none =>
      refine .inl ⟨by rw [none], ?_⟩
      cases style <;> decide
    · exact .inr rfl

include endsLines

variable (style) in
theorem exists_linesBy_titleLine : ∃ line, style.mark.toList <+: line ∧
    linesBy ends (titleLine style.mark title version) =
      line :: (linesBy ends (heading title version)).tail := by
  have printable := isPrintable_mark style
  rcases toList_titleLine_cases style title version with ⟨none, alone⟩ | behind
  · refine ⟨style.mark.toList, List.prefix_rfl, ?_⟩
    rw [linesBy, alone, none, ← linesBy, linesBy_of_printable endsLines printable]
    rfl
  · have noEnd : ∀ c ∈ style.mark.toList ++ [' '], ends c = false := by
      rw [List.forall_mem_append, List.forall_mem_singleton]
      exact ⟨fun c mem => endsLines.printable c (List.all_eq_true.1 printable c mem),
        endsLines.printable ' ' rfl⟩
    obtain ⟨line, others, split, splits⟩ :=
      splitWhere_append_of_forall noEnd (heading title version).toList
    refine ⟨style.mark.toList ++ [' '] ++ line, ?_, ?_⟩
    · rw [List.append_assoc]
      exact List.prefix_append _ _
    · rw [linesBy, behind, splits, linesBy, split]
      rfl

include marked

/-- **Every line of a banner is a comment** exactly if every line that begins in the heading is
marked like one. -/
theorem isMarked_banner_iff : IsMarked ends style.mark (banner title version style) ↔
    ∀ line ∈ headingLines ends title version, style.mark.toList <+: line := by
  have notices : ∀ line ∈ (notice.map (style.mark ++ " " ++ ·)).flatMap (linesBy ends),
      style.mark.toList <+: line := by
    intro line mem
    obtain ⟨_, mem, stands⟩ := List.mem_flatMap.1 mem
    obtain ⟨l, listed, rfl⟩ := List.mem_map.1 mem
    have printable : (style.mark ++ " " ++ l).toList.all isPrintable = true := by
      rw [String.toList_append, String.toList_append, List.all_append, List.all_append,
        isPrintable_mark, isPrintable_notice l listed]
      rfl
    rw [linesBy_of_printable endsLines printable, List.mem_singleton] at stands
    rw [stands]
    exact ⟨(" " ++ l).toList, by simp⟩
  have own : linesBy ends style.mark = [style.mark.toList] :=
    linesBy_of_printable endsLines (isPrintable_mark style)
  rw [IsMarked, banner_eq marked, linesBy_unlines endsLines (by simp [notice]), List.flatMap_append,
    List.forall_mem_append, and_iff_right notices, headingLines]
  split
  · simp
  · obtain ⟨line, opens, lines⟩ := exists_linesBy_titleLine endsLines style title version
    rw [List.flatMap_cons, List.flatMap_singleton, own, lines]
    simp [opens]

end Banner

/-! ### Code below a banner -/

/-- The lines of a text that are no comments. -/
def codeLines (ends : Char → Bool) (s : String) : List (List Char) :=
  (linesBy ends s).filter fun line => !"//".toList.isPrefixOf line

section Code

variable {ends : Char → Bool} (endsLines : EndsLines ends)

theorem codeLines_eq_nil_iff {s : String} : codeLines ends s = [] ↔ IsMarked ends "//" s := by
  rw [codeLines, List.filter_eq_nil_iff, IsMarked]
  simp

include endsLines

/-- A text below a banner has the code of the text alone exactly if the banner is a comment. -/
theorem codeLines_below_iff (title version text : String) :
    codeLines ends (banner title version .slashes ++ "\n" ++ text) =
        codeLines ends (banner "" "" .slashes ++ "\n" ++ text) ↔
      ∀ line ∈ headingLines ends title version, "//".toList <+: line := by
  have untitled : codeLines ends (banner "" "" .slashes) = [] :=
    codeLines_eq_nil_iff.2 <|
      (isMarked_banner_iff endsLines (by decide) "" "").2 (List.forall_mem_nil _)
  have below (s : String) :
      codeLines ends (s ++ "\n" ++ text) = codeLines ends s ++ codeLines ends text := by
    rw [codeLines, linesBy_append_break endsLines, List.filter_append]
    rfl
  rw [below, below, untitled, List.nil_append, List.append_left_eq_self, codeLines_eq_nil_iff]
  exact isMarked_banner_iff endsLines (by decide) title version

theorem codeLines_runtimeText_iff (title version basePath : String) :
    codeLines ends (Package.runtimeText title version basePath) =
        codeLines ends (Package.runtimeText "" "" basePath) ↔
      ∀ line ∈ headingLines ends title version, "//".toList <+: line := by
  have apart (s t : String) : s ++ "\n\n" ++ t = s ++ "\n" ++ ("\n" ++ t) := by
    have gap : "\n\n" = "\n" ++ "\n" := by decide
    rw [gap]
    simp only [String.append_assoc]
  have below (title version : String) : Package.runtimeText title version basePath =
      banner title version .slashes ++ "\n" ++ ("\n" ++ (Package.basePathLine basePath ++
        ("\n\n" ++ ("\n\n".intercalate (Package.runtimeItems.map fun i => Text.unlines i.lines) ++
          "\n")))) := by
    rw [← apart]
    simp only [Package.runtimeText, String.append_assoc]
  rw [below, below]
  exact codeLines_below_iff endsLines title version _

omit endsLines in
theorem rootText_below (title version : String) (description : Value) :
    Crate.rootText title version description = (Crate.commentLines description 0).map fun comment =>
      banner title version .slashes ++ "\n" ++
        Text.unlines ("" :: (comment ++ ["pub mod models;", "", "pub use models::*;", ""])) := by
  unfold Crate.rootText
  cases Crate.commentLines description 0 with
  | error e => rfl
  | ok comment =>
    exact congrArg Except.ok (String.intercalate_cons_of_ne_nil (List.cons_ne_nil _ _))

theorem codeLines_rootText_iff {title version : String} {description : Value} {text : String}
    (written : Crate.rootText title version description = .ok text) :
    ∃ untitled, Crate.rootText "" "" description = .ok untitled ∧
      (codeLines ends text = codeLines ends untitled ↔
        ∀ line ∈ headingLines ends title version, "//".toList <+: line) := by
  rw [rootText_below] at written
  obtain ⟨comment, lines, rfl⟩ := map_eq_ok_iff.1 written
  refine ⟨_, (rootText_below "" "" description).trans (map_eq_ok_iff.2 ⟨comment, lines, rfl⟩), ?_⟩
  exact codeLines_below_iff endsLines title version _

end Code

/-- **Banners are comments** exactly as far as every line that begins in the heading is marked like
one. Under this condition, and only then, a title and a version add no code to the run-time module,
where lines end as in TypeScript, and to the root module of a crate. -/
theorem banner_marked (title version : String) :
    (∀ style : CommentStyle, style ≠ .markup →
      (IsMarked (· == '\n') style.mark (banner title version style) ↔
        ∀ line ∈ headingLines (· == '\n') title version, style.mark.toList <+: line)) ∧
    (∀ basePath, codeLines endsScriptLine (Package.runtimeText title version basePath) =
        codeLines endsScriptLine (Package.runtimeText "" "" basePath) ↔
      ∀ line ∈ headingLines endsScriptLine title version, "//".toList <+: line) ∧
    ∀ description text, Crate.rootText title version description = .ok text →
      ∃ untitled, Crate.rootText "" "" description = .ok untitled ∧
        (codeLines (· == '\n') text = codeLines (· == '\n') untitled ↔
          ∀ line ∈ headingLines (· == '\n') title version, "//".toList <+: line) :=
  ⟨fun _ marked => isMarked_banner_iff endsLines_lineFeed marked title version,
    codeLines_runtimeText_iff endsLines_script title version,
    fun _ _ => codeLines_rootText_iff endsLines_lineFeed⟩

/-- A line feed behind the version is left out. -/
theorem banner_marked_of_pets :
    CommentStyle.hash ≠ .markup ∧ IsMarked (· == '\n') "#" (banner "Pets" "1\n" .hash) ∧
      ∃ text untitled, Crate.rootText "Pets" "1\n" .null = .ok text ∧
        Crate.rootText "" "" .null = .ok untitled ∧
        codeLines (· == '\n') text = codeLines (· == '\n') untitled := by
  obtain ⟨marked, -, root⟩ := banner_marked "Pets" "1\n"
  have none : headingLines (· == '\n') "Pets" "1\n" = [] := by decide
  obtain ⟨untitled, written, same⟩ := root .null _ rfl
  refine ⟨by decide, (marked .hash (by decide)).2 ?_, _, untitled, rfl, written, same.2 ?_⟩
  · rw [none]
    exact List.forall_mem_nil _
  · rw [none]
    exact List.forall_mem_nil _

/-- The second line of a title is code, in the banner and in the run-time module. -/
theorem title_is_code :
    ¬IsMarked (· == '\n') "//" (banner "Pets\nstop()" "1" .slashes) ∧
      codeLines endsScriptLine (Package.runtimeText "Pets\nstop()" "1" "") ≠
        codeLines endsScriptLine (Package.runtimeText "" "" "") := by
  have line : "stop() 1".toList ∈ headingLines (· == '\n') "Pets\nstop()" "1" ∧
      "stop() 1".toList ∈ headingLines endsScriptLine "Pets\nstop()" "1" := by decide
  have unmarked : ¬"//".toList <+: "stop() 1".toList := by decide
  have commented : CommentStyle.slashes ≠ .markup := by decide
  refine ⟨fun marked => unmarked ?_, fun same => unmarked ?_⟩
  · exact (isMarked_banner_iff endsLines_lineFeed commented _ _).1 marked _ line.1
  · exact (codeLines_runtimeText_iff endsLines_script _ _ _).1 same _ line.2

end ClientGen.Source
