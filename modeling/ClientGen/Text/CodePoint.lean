/-!
# Code points of texts

A text is a sequence of code points. One of them may be half of a surrogate pair, which is no
character; it is kept as the character of the same number in a plane that no script uses. The
characters that halves are kept as, and the mark, are themselves kept behind the mark. So every
sequence of code points has a text of its own (`codes_ofCodes`), and texts are joined by joining
their characters. The mark follows all characters for halves, so that texts compare as their code
points do when every character counts as its `orderCode`.
-/

namespace ClientGen.Text

/-! ## Halves of surrogate pairs -/

/-- Whether a number is that of a half. -/
def isHalf (n : Nat) : Bool := 0xd800 ≤ n && n < 0xe000

/-- Whether a number is that of the first half of a pair. -/
def isHighHalf (n : Nat) : Bool := 0xd800 ≤ n && n < 0xdc00

/-- Whether a number is that of the second half of a pair. -/
def isLowHalf (n : Nat) : Bool := 0xdc00 ≤ n && n < 0xe000

/-- The code point of a pair. -/
def ofPair (high low : Nat) : Nat := 0x10000 + (high - 0xd800) * 0x400 + (low - 0xdc00)

/-! ## Characters that are kept for code points -/

/-- What is added to the number of a half for the character that it is kept as. -/
def halfOffset : Nat := 0xd0000

/-- The character that stands before those that would be read as something else. -/
def mark : Char := Char.ofNat 0xde000

/-- Whether a character is kept for a half. -/
def keepsHalf (c : Char) : Bool := isHalf (c.toNat - halfOffset)

/-- Whether a character is kept behind the mark. -/
def isReserved (c : Char) : Bool := keepsHalf c || c == mark

/-- The number of a character, or of the half that it is kept for. -/
def orderCode (c : Char) : Nat := if keepsHalf c then c.toNat - halfOffset else c.toNat

/-- The characters that a code point is kept as. -/
def charsOf (n : Nat) : List Char :=
  if isHalf n then [Char.ofNat (halfOffset + n)]
  else if isReserved (Char.ofNat n) then [mark, Char.ofNat n]
  else [Char.ofNat n]

/-- The characters that code points are kept as. -/
def ofCodes (codes : List Nat) : List Char := codes.flatMap charsOf

/-- The characters that a text of characters is kept as. -/
def ofChars (cs : List Char) : List Char := cs.flatMap fun c => charsOf c.toNat

/-- The code points that characters are kept for. -/
def codes : List Char → List Nat
  | [] => []
  | c :: d :: rest =>
    if c == mark && isReserved d then d.toNat :: codes rest else orderCode c :: codes (d :: rest)
  | [c] => [orderCode c]

/-- The number of a code point that is no half is that of its character. -/
theorem toNat_ofNat_of_not_half {n : Nat} (small : n < 0x110000) (whole : isHalf n = false) :
    (Char.ofNat n).toNat = n := by
  have valid : n.isValidChar := by
    simp [isHalf] at whole
    unfold Nat.isValidChar
    omega
  rw [Char.ofNat, dif_pos valid]
  rfl

/-- The character for a half has a number of its own. -/
theorem toNat_charOf_half {n : Nat} (half : isHalf n = true) :
    (Char.ofNat (halfOffset + n)).toNat = halfOffset + n := by
  simp [isHalf] at half
  apply toNat_ofNat_of_not_half
  · simp [halfOffset]; omega
  · rw [isHalf, halfOffset, Bool.and_eq_false_iff]
    exact .inr (decide_eq_false (by omega))

/-- A code point is read back from its characters, whatever follows them. -/
theorem codes_charsOf_append {n : Nat} (small : n < 0x110000) (rest : List Char) :
    codes (charsOf n ++ rest) = n :: codes rest := by
  unfold charsOf
  by_cases half : isHalf n
  · have number := toNat_charOf_half half
    have keeps : keepsHalf (Char.ofNat (halfOffset + n)) = true := by
      simp [keepsHalf, number, half]
    have order : orderCode (Char.ofNat (halfOffset + n)) = n := by
      simp [orderCode, keeps, number]
    have unmarked : (Char.ofNat (halfOffset + n) == mark) = false := by
      rw [beq_eq_false_iff_ne]
      intro same
      rw [same] at keeps
      exact absurd keeps (by decide)
    cases rest <;> simp [half, codes, unmarked, order]
  · have whole : isHalf n = false := by simpa using half
    have number := toNat_ofNat_of_not_half small whole
    by_cases reserved : isReserved (Char.ofNat n)
    · simp [whole, reserved, codes, number]
    · have plain : keepsHalf (Char.ofNat n) = false ∧ (Char.ofNat n == mark) = false := by
        simpa [isReserved] using reserved
      cases rest <;> simp [whole, reserved, codes, plain.1, plain.2, orderCode, number]

/-- Every sequence of code points is read back from its characters. -/
theorem codes_ofCodes {ns : List Nat} (small : ∀ n ∈ ns, n < 0x110000) :
    codes (ofCodes ns) = ns := by
  induction ns with
  | nil => rfl
  | cons n ns ih =>
    have others := ih fun m hm => small m (List.mem_cons_of_mem n hm)
    rw [ofCodes, List.flatMap_cons, codes_charsOf_append (small n List.mem_cons_self)]
    exact congrArg (n :: ·) others

/-! ## Texts -/

/-- The number of code points of a text. -/
def length (s : String) : Nat := (codes s.toList).length

/-- The text of characters. -/
def ofString (s : String) : String :=
  if s.toList.any isReserved then String.ofList (ofChars s.toList) else s

/-- The characters of a text as they are printed, where a sign takes the place of each half. -/
def printed (s : String) : String :=
  if s.toList.any isReserved then
    String.ofList ((codes s.toList).map fun n => if isHalf n then '\ufffd' else Char.ofNat n)
  else s

/-- The order of characters by their code points. -/
def compareChars : List Char → List Char → Ordering
  | [], [] => .eq
  | [], _ :: _ => .lt
  | _ :: _, [] => .gt
  | c :: cs, d :: ds =>
    if orderCode c < orderCode d then .lt
    else if orderCode d < orderCode c then .gt
    else compareChars cs ds

/-- The order of texts by their code points. -/
def compare (s t : String) : Ordering := compareChars s.toList t.toList

/-- Whether a text comes no later than another. -/
def le (s t : String) : Bool := (compare s t).isLE

/-- Whether a text comes before another. -/
def lt (s t : String) : Bool := (compare s t).isLT

/-- Characters are told apart by what they count as. -/
theorem orderCode_inj {c d : Char} (same : orderCode c = orderCode d) : c = d := by
  have valid (e : Char) : e.toNat < 0xd800 ∨ 0xdfff < e.toNat ∧ e.toNat < 0x110000 := e.valid
  have number : c.toNat = d.toNat := by
    have hc := valid c
    have hd := valid d
    revert same
    unfold orderCode keepsHalf isHalf halfOffset
    simp only [Bool.and_eq_true, decide_eq_true_eq]
    split <;> split <;> omega
  rw [← Char.ofNat_toNat c, ← Char.ofNat_toNat d, number]

theorem compareChars_eq_iff : ∀ {cs ds : List Char}, compareChars cs ds = .eq ↔ cs = ds
  | [], [] => by simp [compareChars]
  | [], _ :: _ => by simp [compareChars]
  | _ :: _, [] => by simp [compareChars]
  | c :: cs, d :: ds => by
    unfold compareChars
    split
    · next less => simp; intro same; subst same; omega
    · split
      · next more => simp; intro same; subst same; omega
      · next notLess notMore =>
        have same : c = d := orderCode_inj (by omega)
        simp [same, compareChars_eq_iff]

/-- Texts that neither comes before are the same. -/
theorem compare_eq_iff_eq {s t : String} : compare s t = .eq ↔ s = t := by
  rw [compare, compareChars_eq_iff, String.toList_inj]

end ClientGen.Text
