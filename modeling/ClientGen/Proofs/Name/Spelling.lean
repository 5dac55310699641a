import ClientGen.Name.Identifier

/-!
# The characters of names

Whatever a document calls something, its words are made of ASCII letters and digits
(`isAlphanum_of_mem_words`). So the name of a type and the name of a file in any spelling hold
nothing that would end a module path or a line (`isNameChar_typeName`, `isNameChar_apply`).
-/

namespace ClientGen.Name

/-- Whether a character may stand in a name: an ASCII letter or digit, an underscore or a hyphen. -/
def isNameChar (c : Char) : Bool := c.isAlphanum || c = '_' || c = '-'

/-- Whether a character may stand in a module path: in a name, or between names. -/
def isPathChar (c : Char) : Bool := isNameChar c || c = '.' || c = '/'

theorem isNameChar_of_isAlphanum {c : Char} (h : c.isAlphanum = true) : isNameChar c = true := by
  simp [isNameChar, h]

/-! ### Letters and digits -/

theorem toNat_lt_of_isAlphanum {c : Char} (h : c.isAlphanum = true) : c.toNat < 128 := by
  change ((decide ('A'.val ≤ c.val ∧ c.val ≤ 'Z'.val) ||
    (decide ('a'.val ≤ c.val) && decide (c.val ≤ 'z'.val))) ||
    (decide ('0'.val ≤ c.val) && decide (c.val ≤ '9'.val))) = true at h
  simp only [Bool.or_eq_true, Bool.and_eq_true, decide_eq_true_eq, UInt32.le_iff_toNat_le] at h
  change c.val.toNat < 128
  have upper : 'Z'.val.toNat = 90 := rfl
  have lower : 'z'.val.toNat = 122 := rfl
  have digit : '9'.val.toNat = 57 := rfl
  omega

/-- What is known of ASCII letters and digits is decided one by one. -/
theorem of_isAlphanum {P : Char → Prop}
    (table : ∀ n < 128, (Char.ofNat n).isAlphanum = true → P (Char.ofNat n)) {c : Char}
    (h : c.isAlphanum = true) : P c := by
  have here := table c.toNat (toNat_lt_of_isAlphanum h)
  rw [Char.ofNat_toNat] at here
  exact here h

/-- What is known of the small and the capital form of an ASCII letter or digit. -/
structure CaseFacts (c : Char) : Prop where
  alphanum_toLower : c.toLower.isAlphanum = true
  alphanum_toUpper : c.toUpper.isAlphanum = true
  upper_eq : c.isUpper = !(c.isLower || c.isDigit)
  digit_of_alpha : c.isAlpha = true → c.isDigit = false
  toLower_eq_iff : c.toLower = c ↔ c.isUpper = false
  toUpper_of_upper : c.isUpper = true → c.toUpper = c
  upper_toLower : c.toLower.isUpper = false
  upper_toUpper : c.isAlpha = true → c.toUpper.isUpper = true
  alpha_of_toUpper : c.toUpper.isAlpha = true → c.isAlpha = true
  toLower_toUpper : c.toUpper.toLower = c.toLower
  toUpper_toLower : c.toLower.toUpper = c.toUpper
  toUpper_toUpper : c.toUpper.toUpper = c.toUpper

instance (c : Char) : Decidable (CaseFacts c) :=
  decidable_of_iff
    ((c.toLower.isAlphanum = true ∧ c.toUpper.isAlphanum = true ∧
        c.isUpper = (!(c.isLower || c.isDigit)) ∧ (c.isAlpha = true → c.isDigit = false)) ∧
      ((c.toLower = c ↔ c.isUpper = false) ∧ (c.isUpper = true → c.toUpper = c)) ∧
      (c.toLower.isUpper = false ∧ (c.isAlpha = true → c.toUpper.isUpper = true) ∧
        (c.toUpper.isAlpha = true → c.isAlpha = true)) ∧
      c.toUpper.toLower = c.toLower ∧ c.toLower.toUpper = c.toUpper ∧
      c.toUpper.toUpper = c.toUpper)
    ⟨fun ⟨⟨a, b, e, f⟩, ⟨g, h⟩, ⟨i, j, k⟩, l, m, n⟩ => ⟨a, b, e, f, g, h, i, j, k, l, m, n⟩,
      fun ⟨a, b, e, f, g, h, i, j, k, l, m, n⟩ => ⟨⟨a, b, e, f⟩, ⟨g, h⟩, ⟨i, j, k⟩, l, m, n⟩⟩

theorem caseFacts_of_isAlphanum {c : Char} (h : c.isAlphanum = true) : CaseFacts c :=
  of_isAlphanum (by decide +kernel) h

theorem isAlphanum_toLower {c : Char} (h : c.isAlphanum = true) : c.toLower.isAlphanum = true :=
  (caseFacts_of_isAlphanum h).alphanum_toLower

theorem isAlphanum_toUpper {c : Char} (h : c.isAlphanum = true) : c.toUpper.isAlphanum = true :=
  (caseFacts_of_isAlphanum h).alphanum_toUpper

/-! ### Words -/

/-- No character that is cut at stands in a piece. -/
theorem not_of_mem_splitWhere {p : Char → Bool} {cs piece : List Char}
    (mem : piece ∈ Text.splitWhere p cs) {c : Char} (here : c ∈ piece) : p c = false := by
  induction cs generalizing piece with
  | nil =>
    rw [Text.splitWhere, List.mem_singleton] at mem
    rw [mem] at here
    exact absurd here List.not_mem_nil
  | cons d rest ih =>
    rw [Text.splitWhere] at mem
    split at mem
    · rcases List.mem_cons.1 mem with rfl | mem
      · exact absurd here List.not_mem_nil
      · exact ih mem here
    · next kept =>
      have ne := Text.splitWhere_ne_nil p rest
      split at mem
      · next none => exact absurd none ne
      · next first others split =>
        rcases List.mem_cons.1 mem with rfl | mem
        · rcases List.mem_cons.1 here with rfl | here
          · exact Bool.eq_false_iff.2 kept
          · exact ih (split ▸ List.mem_cons_self) here
        · exact ih (split ▸ List.mem_cons_of_mem _ mem) here

/-- The words of a name are made of ASCII letters and digits. -/
theorem isAlphanum_of_mem_words {cs word : List Char} (mem : word ∈ words cs) {c : Char}
    (here : c ∈ word) : c.isAlphanum = true := by
  obtain ⟨piece, kept, rfl⟩ := List.mem_map.1 mem
  obtain ⟨d, inside, rfl⟩ := List.mem_map.1 here
  have cut := not_of_mem_splitWhere (List.mem_filter.1 kept).1 inside
  exact isAlphanum_toLower (by simpa using cut)

theorem isAlphanum_of_mem_capitalize {word : List Char} (h : ∀ c ∈ word, c.isAlphanum = true)
    {c : Char} (here : c ∈ capitalize word) : c.isAlphanum = true := by
  cases word with
  | nil => exact absurd here List.not_mem_nil
  | cons d rest =>
    obtain ⟨first, others⟩ := List.forall_mem_cons.1 h
    rcases List.mem_cons.1 here with rfl | here
    · exact isAlphanum_toUpper first
    · exact others c here

theorem mem_joinChars {sep c : Char} {ws : List (List Char)}
    (here : c ∈ Text.joinChars [sep] ws) : c = sep ∨ ∃ w ∈ ws, c ∈ w := by
  fun_induction Text.joinChars [sep] ws with
  | case1 => exact absurd here List.not_mem_nil
  | case2 piece => exact .inr ⟨piece, List.mem_singleton_self _, here⟩
  | case3 piece pieces _ ih =>
    rcases List.mem_append.1 here with here | here
    · rcases List.mem_append.1 here with here | here
      · exact .inr ⟨piece, List.mem_cons_self, here⟩
      · exact .inl (List.mem_singleton.1 here)
    · rcases ih here with same | ⟨w, mem, here⟩
      · exact .inl same
      · exact .inr ⟨w, List.mem_cons_of_mem _ mem, here⟩

/-! ### Spellings -/

theorem isAlphanum_pascal (s : String) : ∀ c ∈ (pascal s).toList, c.isAlphanum = true := by
  intro c here
  rw [pascal, String.toList_ofList] at here
  obtain ⟨word, mem, here⟩ := List.mem_flatMap.1 here
  exact isAlphanum_of_mem_capitalize (fun _ => isAlphanum_of_mem_words mem) here

theorem isAlphanum_camel (s : String) : ∀ c ∈ (camel s).toList, c.isAlphanum = true := by
  intro c here
  unfold camel at here
  split at here
  · exact absurd here (by simp)
  · next first rest split =>
    have listed : ∀ w ∈ first :: rest, w ∈ words s.toList := fun w mem => split ▸ mem
    rw [String.toList_ofList] at here
    rcases List.mem_append.1 here with here | here
    · exact isAlphanum_of_mem_words (listed first List.mem_cons_self) here
    · obtain ⟨word, mem, here⟩ := List.mem_flatMap.1 here
      have inside := listed word (List.mem_cons_of_mem _ mem)
      exact isAlphanum_of_mem_capitalize (fun _ => isAlphanum_of_mem_words inside) here

theorem isNameChar_joinWords {sep : Char} (sepIs : isNameChar sep = true) (s : String) :
    ∀ c ∈ (joinWords sep (words s.toList)).toList, isNameChar c = true := by
  intro c here
  rw [joinWords, String.toList_ofList] at here
  rcases mem_joinChars here with rfl | ⟨w, mem, here⟩
  · exact sepIs
  · exact isNameChar_of_isAlphanum (isAlphanum_of_mem_words mem here)

/-- The name of a file, in any spelling, is made of characters of names. -/
theorem isNameChar_apply (naming : Convention) (s : String) :
    ∀ c ∈ (naming.apply s).toList, isNameChar c = true := by
  cases naming with
  | camel => exact fun c here => isNameChar_of_isAlphanum (isAlphanum_camel s c here)
  | kebab => exact isNameChar_joinWords (by decide) s
  | snake => exact isNameChar_joinWords (by decide) s
  | pascal => exact fun c here => isNameChar_of_isAlphanum (isAlphanum_pascal s c here)

/-- The name of a type is made of ASCII letters, digits and underscores. -/
theorem isAlphanum_typeName (s : String) :
    ∀ c ∈ (typeName s).toList, c.isAlphanum = true ∨ c = '_' := by
  intro c here
  unfold typeName at here
  dsimp only at here
  split at here
  · exact .inl (List.all_eq_true.1 (by decide : "Unnamed".toList.all Char.isAlphanum = true) c here)
  · unfold guardDigit at here
    split at here
    · rw [String.toList_append] at here
      rcases List.mem_append.1 here with here | here
      · exact .inr (List.mem_singleton.1 here)
      · exact .inl (isAlphanum_pascal s c here)
    · exact .inl (isAlphanum_pascal s c here)

/-- The name of a type is made of characters of names. -/
theorem isNameChar_typeName (s : String) : ∀ c ∈ (typeName s).toList, isNameChar c = true := by
  intro c here
  rcases isAlphanum_typeName s c here with alphanum | rfl
  · exact isNameChar_of_isAlphanum alphanum
  · decide

/-- The name of a type is one word of source text. -/
theorem isIdentifierRest_typeName (s : String) :
    ∀ c ∈ (typeName s).toList, isIdentifierRest c = true := by
  intro c here
  rcases isAlphanum_typeName s c here with alphanum | rfl
  · simp [isIdentifierRest, alphanum]
  · decide

theorem typeName_ne_empty (s : String) : typeName s ≠ "" := by
  unfold typeName
  dsimp only
  split
  · decide
  · next filled =>
    unfold guardDigit
    split
    · intro none
      have long := congrArg String.length none
      simp at long
    · simpa using filled

end ClientGen.Name
