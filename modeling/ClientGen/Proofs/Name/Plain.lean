import ClientGen.Proofs.Name.Pascal

/-!
# Plain identifiers

The names of parameters and of enum members are letters, digits and underscores and do not begin
with a digit (`IsPlainIdentifier`), with or without a number behind them. No name of a parameter is
reserved (`valueName_not_reserved`): what makes it distinct from others is a number, and no word that
is reserved ends in a digit.
-/

namespace ClientGen.Name

/-- Whether a text is a letter or an underscore, and letters, digits and underscores after it. -/
def IsPlainIdentifier (s : String) : Prop :=
  ∃ c rest, s.toList = c :: rest ∧ (c.isAlpha = true ∨ c = '_') ∧
    ∀ d ∈ rest, d.isAlphanum = true ∨ d = '_'

theorem IsPlainIdentifier.append {s t : String} (h : IsPlainIdentifier s)
    (more : ∀ d ∈ t.toList, d.isAlphanum = true ∨ d = '_') : IsPlainIdentifier (s ++ t) := by
  obtain ⟨c, rest, text, first, others⟩ := h
  refine ⟨c, rest ++ t.toList, by rw [String.toList_append, text, List.cons_append], first, ?_⟩
  intro d mem
  rcases List.mem_append.1 mem with mem | mem
  · exact others d mem
  · exact more d mem

theorem IsPlainIdentifier.underscored {s : String} (h : IsPlainIdentifier s) :
    IsPlainIdentifier (s ++ "_") := by
  refine h.append fun d mem => .inr ?_
  simpa using mem

theorem IsPlainIdentifier.numbered {s : String} (h : IsPlainIdentifier s) (n : Nat) :
    IsPlainIdentifier (s ++ toString n) := by
  refine h.append fun d mem => .inl ?_
  rw [Nat.toString_eq_repr, Nat.toList_repr] at mem
  have digit := Nat.isDigit_of_mem_toDigits (by decide) (by decide) mem
  simp [Char.isAlphanum, digit]

/-- A name that is made distinct stays such a name, or keeps its number. -/
theorem distinctFrom_eq (taken : List String) (base : String) :
    distinctFrom taken base = base ∨ ∃ n : Nat, distinctFrom taken base = base ++ toString n := by
  rw [distinctFrom]
  split
  · exact .inr (firstNumbered_eq _ base _ 2)
  · exact .inl rfl

theorem IsPlainIdentifier.distinctFrom {s : String} (h : IsPlainIdentifier s)
    (taken : List String) : IsPlainIdentifier (distinctFrom taken s) := by
  rcases distinctFrom_eq taken s with same | ⟨n, numbered⟩
  · rwa [same]
  · rw [numbered]
    exact h.numbered n

/-- An underscore is put before a leading digit. -/
theorem isPlainIdentifier_guardDigit {s : String} (nonempty : s.isEmpty = false)
    (letters : ∀ c ∈ s.toList, c.isAlphanum = true) : IsPlainIdentifier (guardDigit s) := by
  cases text : s.toList with
  | nil =>
    rw [String.toList_eq_nil_iff] at text
    rw [text] at nonempty
    cases nonempty
  | cons c rest =>
    rw [text] at letters
    obtain ⟨first, others⟩ := List.forall_mem_cons.1 letters
    rw [guardDigit, text]
    cases digit : c.isDigit with
    | true =>
      refine ⟨'_', c :: rest, ?_, .inr rfl, fun d mem => .inl (letters d mem)⟩
      simp [digit, text]
    | false =>
      refine ⟨c, rest, ?_, .inl ?_, fun d mem => .inl (others d mem)⟩
      · simpa [digit] using text
      · simpa [Char.isAlphanum, digit] using first

/-! ### Enum members -/

theorem isPlainIdentifier_memberName (s : String) : IsPlainIdentifier (memberName s) := by
  rw [memberName]
  split
  · exact ⟨'E', ['m', 'p', 't', 'y'], rfl, .inl rfl, by simp⟩
  · next some =>
    exact isPlainIdentifier_guardDigit (Bool.eq_false_iff.2 some) (isAlphanum_pascal s)

/-! ### Parameters -/

theorem isPlainIdentifier_valueName (s : String) : IsPlainIdentifier (valueName s) := by
  rw [valueName]
  split
  · exact ⟨'p', ['a', 'r', 'a', 'm'], rfl, .inl rfl, by simp⟩
  · next some =>
    have plain : IsPlainIdentifier (guardDigit (camel s)) :=
      isPlainIdentifier_guardDigit (Bool.eq_false_iff.2 some) (isAlphanum_camel s)
    dsimp only
    split
    · exact plain.underscored
    · exact plain

theorem valueName_not_reserved (s : String) : valueName s ∉ reservedWords := by
  rw [valueName]
  split
  · decide
  · dsimp only
    split
    · have other : ∀ word ∈ reservedWords, ¬"_".toList <:+ word.toList := by decide
      exact append_not_mem other _
    · next free => simpa using free

/-- A name with a number is not reserved either. -/
theorem distinctFrom_not_reserved {s : String} (free : s ∉ reservedWords) (taken : List String) :
    distinctFrom taken s ∉ reservedWords := by
  rcases distinctFrom_eq taken s with same | ⟨n, numbered⟩
  · rwa [same]
  · have other : ∀ word ∈ reservedWords, endsInDigit word = false := by decide
    intro mem
    have digit := other _ mem
    rw [numbered, endsInDigit_numbered] at digit
    cases digit

end ClientGen.Name
