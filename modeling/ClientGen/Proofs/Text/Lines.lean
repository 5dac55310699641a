import ClientGen.Proofs.Text.Length

/-!
# Blocks of lines

A text that is put together from blocks, with an empty line between neighbours, is the text of one
list of lines (`intercalate_unlines`). The line that was put last is the last one of the text
(`getLast?_lines_unlines`). Each of the blocks stands in the text on lines of its own
(`stands_intercalate`).
-/

namespace ClientGen.Text

/-- Blocks as one list of lines, with an empty line between neighbours. -/
def apart : List (List String) → List String
  | [] => []
  | [block] => block
  | block :: blocks => block ++ "" :: apart blocks

theorem apart_cons_of_ne_nil (block : List String) {blocks : List (List String)}
    (h : blocks ≠ []) : apart (block :: blocks) = block ++ "" :: apart blocks := by
  cases blocks with
  | nil => exact absurd rfl h
  | cons next others => rfl

theorem apart_ne_nil {blocks : List (List String)} (some : blocks ≠ [])
    (filled : ∀ block ∈ blocks, block ≠ []) : apart blocks ≠ [] := by
  cases blocks with
  | nil => exact absurd rfl some
  | cons block others =>
    by_cases last : others = []
    · subst last
      exact filled block (List.mem_singleton_self block)
    · rw [apart_cons_of_ne_nil block last]
      simp

/-- The text of blocks that are not empty is that of their lines. -/
theorem intercalate_unlines {blocks : List (List String)}
    (filled : ∀ block ∈ blocks, block ≠ []) :
    "\n\n".intercalate (blocks.map unlines) = unlines (apart blocks) := by
  induction blocks with
  | nil => rfl
  | cons block others ih =>
    obtain ⟨first, rest⟩ := List.forall_mem_cons.1 filled
    by_cases last : others = []
    · subst last
      exact String.intercalate_singleton
    · have behind : unlines ("" :: apart others) = "\n" ++ unlines (apart others) := by
        unfold unlines
        rw [String.intercalate_cons_of_ne_nil (apart_ne_nil last rest)]
        simp
      have whole : unlines (block ++ "" :: apart others)
          = unlines block ++ "\n" ++ unlines ("" :: apart others) :=
        String.intercalate_append_of_ne_nil first (List.cons_ne_nil _ _)
      rw [List.map_cons, String.intercalate_cons_of_ne_nil (by simpa using last), ih rest,
        apart_cons_of_ne_nil block last, whole, behind]
      have gap : "\n\n" = "\n" ++ "\n" := by decide
      rw [gap]
      simp only [String.append_assoc]

theorem getLast?_lines_unlines (ls : List String) {line : String} (noBreak : '\n' ∉ line.toList) :
    (lines (unlines (ls ++ [line]))).getLast? = some line := by
  by_cases alone : ls = []
  · subst alone
    have text : (unlines [line]).toList = [] ++ line.toList := by
      unfold unlines
      rw [String.intercalate_singleton, List.nil_append]
    simpa using getLast?_lines text (.inl rfl) noBreak
  · have text : (unlines (ls ++ [line])).toList
        = ((unlines ls).toList ++ ['\n']) ++ line.toList := by
      unfold unlines
      rw [String.intercalate_append_of_ne_nil alone (List.cons_ne_nil _ _),
        String.intercalate_singleton]
      simp
    simpa using getLast?_lines text (.inr ⟨_, rfl⟩) noBreak

/-! ### Lines of their own -/

/-- Whether a block stands in a text on lines of its own. -/
def Stands (block text : String) : Prop :=
  ∃ front back, text.toList = front ++ (block.toList ++ back) ∧ EndsLine front ∧
    (back = [] ∨ ∃ more, back = '\n' :: more)

theorem stands_self (block : String) : Stands block block :=
  ⟨[], [], by simp, .inl rfl, .inl rfl⟩

theorem Stands.trans {block text whole : String} (h : Stands block text)
    (h' : Stands text whole) : Stands block whole := by
  obtain ⟨front, back, split, begins, ended⟩ := h
  obtain ⟨front', back', split', begins', ended'⟩ := h'
  refine ⟨front' ++ front, back ++ back', by simp [split', split], begins'.append begins, ?_⟩
  rcases ended with rfl | ⟨more, rfl⟩
  · rwa [List.nil_append]
  · exact .inr ⟨more ++ back', rfl⟩

/-- A separator between blocks that ends one line and begins another. -/
structure IsGap (sep : String) : Prop where
  ends : ∃ more, sep.toList = '\n' :: more
  begins : ∃ before, sep.toList = before ++ ['\n']

theorem isGap_break : IsGap "\n" := ⟨⟨[], by decide⟩, ⟨[], by decide⟩⟩

theorem isGap_breaks : IsGap "\n\n" := ⟨⟨['\n'], by decide⟩, ⟨['\n'], by decide⟩⟩

theorem stands_intercalate {sep : String} (gap : IsGap sep) {blocks : List String} {block : String}
    (mem : block ∈ blocks) : Stands block (sep.intercalate blocks) := by
  induction blocks with
  | nil => exact absurd mem List.not_mem_nil
  | cons first others ih =>
    by_cases last : others = []
    · subst last
      rw [List.mem_singleton.1 mem, String.intercalate_singleton]
      exact stands_self first
    · rw [String.intercalate_cons_of_ne_nil last]
      rcases List.mem_cons.1 mem with rfl | mem
      · obtain ⟨more, ends⟩ := gap.ends
        exact ⟨[], '\n' :: (more ++ (sep.intercalate others).toList), by simp [ends], .inl rfl,
          .inr ⟨_, rfl⟩⟩
      · obtain ⟨before, begins⟩ := gap.begins
        refine (ih mem).trans ⟨first.toList ++ sep.toList, [], by simp, ?_, .inl rfl⟩
        exact .inr ⟨first.toList ++ before, by simp [begins]⟩

end ClientGen.Text
