import ClientGen.Text.Blank
import ClientGen.Text.CodePoint

/-!
# Lengths and lines of texts

Characters that are kept for code points (`Kept`) have a length that adds up when more characters
follow (`codes_append`), and characters in front never count for more than the whole
(`length_codes_le_append`). A text has one line more than it has line feeds; which line stands
between two line feeds is said by `getElem?_lines`, and which one stands last by `getLast?_lines`.
-/

namespace ClientGen.Text

/-! ### Characters that are kept for code points -/

/-- Whether characters are kept for code points. Every text that is read or written is; what is left
out are marks that nothing stands behind. -/
def Kept (cs : List Char) : Prop := ∃ ns : List Nat, (∀ n ∈ ns, n < 0x110000) ∧ cs = ofCodes ns

theorem kept_nil : Kept [] := ⟨[], nofun, rfl⟩

theorem Kept.append {cs ds : List Char} (h : Kept cs) (h' : Kept ds) : Kept (cs ++ ds) := by
  obtain ⟨ns, small, rfl⟩ := h
  obtain ⟨ms, small', rfl⟩ := h'
  refine ⟨ns ++ ms, List.forall_mem_append.2 ⟨small, small'⟩, ?_⟩
  rw [ofCodes, ofCodes, ofCodes, List.flatMap_append]

theorem small_of_mem_replicate_space {k n : Nat} (mem : n ∈ List.replicate k 32) :
    n < 0x110000 := by
  rw [List.eq_of_mem_replicate mem]
  decide

theorem ofCodes_replicate_space (k : Nat) :
    ofCodes (List.replicate k 32) = List.replicate k ' ' := by
  have space : charsOf 32 = [' '] := by decide
  induction k with
  | zero => rfl
  | succ k ih =>
    rw [List.replicate_succ, List.replicate_succ, ofCodes, List.flatMap_cons, space, ← ofCodes, ih]
    rfl

theorem kept_replicate_space (k : Nat) : Kept (List.replicate k ' ') :=
  ⟨List.replicate k 32, fun _ mem => small_of_mem_replicate_space mem,
    (ofCodes_replicate_space k).symm⟩

theorem length_codes_replicate_space (k : Nat) : (codes (List.replicate k ' ')).length = k := by
  rw [← ofCodes_replicate_space, codes_ofCodes fun _ mem => small_of_mem_replicate_space mem,
    List.length_replicate]

/-- The code points of kept characters and of those behind them. -/
theorem codes_append {cs : List Char} (h : Kept cs) (ds : List Char) :
    codes (cs ++ ds) = codes cs ++ codes ds := by
  obtain ⟨ns, small, rfl⟩ := h
  rw [codes_ofCodes small]
  induction ns with
  | nil => rfl
  | cons n ns ih =>
    obtain ⟨first, others⟩ := List.forall_mem_cons.1 small
    rw [ofCodes, List.flatMap_cons, ← ofCodes, List.append_assoc, codes_charsOf_append first,
      ih others]
    rfl

/-- Characters in front count for no more than the whole. -/
theorem length_codes_le_append (cs ds : List Char) :
    (codes cs).length ≤ (codes (cs ++ ds)).length := by
  fun_induction codes cs with
  | case1 => exact Nat.zero_le _
  | case2 c d rest marked ih =>
    rw [List.cons_append, List.cons_append, codes, if_pos marked, List.length_cons,
      List.length_cons]
    omega
  | case3 c d rest unmarked ih =>
    rw [List.cons_append] at ih
    rw [List.cons_append, List.cons_append, codes, if_neg unmarked, List.length_cons,
      List.length_cons]
    omega
  | case4 c =>
    cases ds with
    | nil => exact Nat.le_refl _
    | cons d ds =>
      rw [List.singleton_append, codes]
      split <;> exact Nat.succ_le_succ (Nat.zero_le _)

/-! ### Lines -/

/-- Characters without any that is cut at are one piece. -/
theorem splitWhere_of_forall {p : Char → Bool} {cs : List Char} (noBreak : ∀ c ∈ cs, p c = false) :
    splitWhere p cs = [cs] := by
  induction cs with
  | nil => rfl
  | cons c rest ih =>
    obtain ⟨first, others⟩ := List.forall_mem_cons.1 noBreak
    rw [splitWhere, first, ih others]
    rfl

theorem splitWhere_of_not_mem {sep : Char} {cs : List Char} (noBreak : sep ∉ cs) :
    splitWhere (· == sep) cs = [cs] := by
  apply splitWhere_of_forall
  intro c mem
  rw [beq_eq_false_iff_ne]
  rintro rfl
  exact noBreak mem

/-- A character that is not cut at belongs to the first piece of what follows. -/
theorem exists_splitWhere_cons {p : Char → Bool} {c : Char} (kept : p c = false)
    (rest : List Char) : ∃ piece pieces, splitWhere p rest = piece :: pieces ∧
      splitWhere p (c :: rest) = (c :: piece) :: pieces := by
  obtain ⟨piece, pieces, split⟩ := List.exists_cons_of_ne_nil (splitWhere_ne_nil p rest)
  refine ⟨piece, pieces, split, ?_⟩
  rw [splitWhere, kept, split]
  rfl

theorem splitWhere_append_cons {p : Char → Bool} {c : Char} (sep : p c = true)
    (cs ds : List Char) : splitWhere p (cs ++ c :: ds) = splitWhere p cs ++ splitWhere p ds := by
  induction cs with
  | nil => simp [splitWhere, sep]
  | cons d rest ih =>
    rw [List.cons_append, splitWhere, splitWhere, ih]
    split
    · rfl
    · cases split : splitWhere p rest with
      | nil => exact absurd split (splitWhere_ne_nil p rest)
      | cons piece pieces => rfl

theorem length_splitWhere (p : Char → Bool) (cs : List Char) :
    (splitWhere p cs).length = cs.countP p + 1 := by
  induction cs with
  | nil => rfl
  | cons c rest ih =>
    rw [splitWhere]
    split
    · next sep => rw [List.length_cons, ih, List.countP_cons_of_pos sep]
    · next noSep =>
      rw [List.countP_cons_of_neg noSep, ← ih]
      cases split : splitWhere p rest with
      | nil => exact absurd split (splitWhere_ne_nil p rest)
      | cons piece pieces => rfl

/-- Characters after which a new line begins: none, or those up to a line feed. -/
def EndsLine (cs : List Char) : Prop := cs = [] ∨ ∃ before, cs = before ++ ['\n']

theorem EndsLine.append {cs ds : List Char} (h : EndsLine cs) (h' : EndsLine ds) :
    EndsLine (cs ++ ds) := by
  rcases h' with rfl | ⟨ls, rfl⟩
  · rwa [List.append_nil]
  · exact .inr ⟨cs ++ ls, by simp⟩

/-- Spaces at the end of characters do not reach back beyond the line that is last. -/
theorem EndsLine.exists_of_append_spaces {before line front : List Char} {k : Nat}
    (h : EndsLine before) (same : before ++ line = front ++ List.replicate k ' ') :
    ∃ line', front = before ++ line' ∧ line = line' ++ List.replicate k ' ' := by
  rcases List.append_eq_append_iff.1 same with ⟨more, rfl, split⟩ | ⟨more, rfl, split⟩
  · exact ⟨more, rfl, split⟩
  · rcases List.eq_nil_or_concat more with rfl | ⟨more, c, rfl⟩
    · exact ⟨[], by simp, by simpa using split.symm⟩
    · -- the last of these spaces would be the end of a line
      rw [List.concat_eq_append] at h split
      have space : c ∈ List.replicate k ' ' := by rw [split]; simp
      have last : c = '\n' := by
        rcases h with none | ⟨lines, ended⟩
        · simp at none
        · rw [← List.append_assoc] at ended
          exact List.singleton_inj.1 (List.append_inj' ended rfl).2
      rw [last, List.mem_replicate] at space
      exact absurd space.2 (by decide)

/-- The lines of characters up to the beginning of a line and of those behind them. -/
theorem EndsLine.splitWhere_append {cs : List Char} (h : EndsLine cs) (ds : List Char) :
    ∃ before : List (List Char), before.length = cs.count '\n' ∧
      splitWhere (· == '\n') (cs ++ ds) = before ++ splitWhere (· == '\n') ds := by
  rcases h with rfl | ⟨front, rfl⟩
  · exact ⟨[], rfl, rfl⟩
  · refine ⟨splitWhere (· == '\n') front, ?_, ?_⟩
    · rw [length_splitWhere, List.count_append, List.count]
      rfl
    · rw [List.append_assoc, List.singleton_append]
      exact splitWhere_append_cons rfl front ds

/-- The line that stands last. -/
theorem getLast?_lines {s : String} {before line : List Char} (text : s.toList = before ++ line)
    (begins : EndsLine before) (noBreak : '\n' ∉ line) :
    (lines s).getLast? = some (String.ofList line) := by
  obtain ⟨ls, -, split⟩ := begins.splitWhere_append line
  rw [lines, splitAt, text, split, splitWhere_of_not_mem noBreak, List.map_append]
  exact List.getLast?_concat

/-- The line that stands behind so many line feeds, up to the end or another line feed. -/
theorem getElem?_lines {s : String} {before line after : List Char}
    (text : s.toList = before ++ (line ++ after)) (begins : EndsLine before)
    (noBreak : '\n' ∉ line) (ended : after = [] ∨ ∃ rest, after = '\n' :: rest) :
    (lines s)[before.count '\n']? = some (String.ofList line) := by
  obtain ⟨ls, number, split⟩ := begins.splitWhere_append (line ++ after)
  have alone := splitWhere_of_not_mem noBreak
  have first : ∃ others, splitWhere (· == '\n') (line ++ after) = line :: others := by
    rcases ended with rfl | ⟨rest, rfl⟩
    · exact ⟨[], by rw [List.append_nil, alone]⟩
    · refine ⟨splitWhere (· == '\n') rest, ?_⟩
      rw [splitWhere_append_cons rfl, alone]
      rfl
  obtain ⟨others, first⟩ := first
  rw [lines, splitAt, text, split, first, List.getElem?_map, ← number,
    List.getElem?_append_right (Nat.le_refl _), Nat.sub_self]
  rfl

end ClientGen.Text
