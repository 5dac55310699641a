import ClientGen.Proofs.Json.Literal
import ClientGen.Proofs.Name.Spelling

/-!
# What the key of a property stands for

A name of letters, digits, underscores and dollar signs that does not begin with a digit is its own
key (`IsKeyName`); another name is written as a JSON literal, which is read as the name.

**What a key stands for** (`propertyKey_read`): for every name the key is one of the two, unless the
name is one of the first kind with a line feed behind it. Such a name is its own key too, and a line
feed behind a key is blank space (`key_with_break`). A literal gives the UTF-16 units of the name:
a pair of halves in it is read as the character that they make. Names with the same key are the same
up to such pairs.
-/

namespace ClientGen.Name

open Json (joined)

/-- Whether a name may stand before a colon without quotes: there is something in it, all of it
letters, digits, underscores and dollar signs, and no digit comes first. -/
def IsKeyName (name : String) : Prop :=
  name ≠ "" ∧ (∀ c ∈ name.toList, c.isAlphanum = true ∨ c = '_' ∨ c = '$') ∧
    ∀ c ∈ name.toList.head?, c.isDigit = false

/-- Whether a key is a string literal of JSON that is read as a name, with the pairs of halves in it
joined. -/
def IsLiteralOf (key name : String) : Prop :=
  key.toList.head? = some '"' ∧ key.toList.getLast? = some '"' ∧
    Json.read key = .ok (.str (joined name))

/-- Whether a key stands for a name. -/
def IsKeyOf (key name : String) : Prop :=
  key = name ∧ IsKeyName name ∨ IsLiteralOf key name

/-- Whether a name would need no quotes without the line feed that ends it. -/
def IsKeyWithBreak (name : String) : Prop := ∃ key, IsKeyName key ∧ name = key ++ "\n"

/-! ### Names without quotes -/

variable {name other : String}

theorem isIdentifierRest_iff {c : Char} :
    isIdentifierRest c = true ↔ c.isAlphanum = true ∨ c = '_' ∨ c = '$' := by
  simp [isIdentifierRest, or_assoc]

theorem isIdentifierStart_iff {c : Char} :
    isIdentifierStart c = true ↔ isIdentifierRest c = true ∧ c.isDigit = false := by
  have alphanum (alpha : c.isAlpha = true) : c.isAlphanum = true := by
    rw [Char.isAlphanum, alpha, Bool.true_or]
  constructor
  · intro start
    rcases (by simpa [isIdentifierStart, or_assoc] using start : _ ∨ c = '_' ∨ c = '$') with
      alpha | rfl | rfl
    · exact ⟨isIdentifierRest_iff.2 (.inl (alphanum alpha)),
        (caseFacts_of_isAlphanum (alphanum alpha)).digit_of_alpha alpha⟩
    · decide
    · decide
  · rintro ⟨rest, noDigit⟩
    simpa [isIdentifierStart, isIdentifierRest, Char.isAlphanum, noDigit] using rest

theorem IsKeyName.not_mem_break (h : IsKeyName name) : '\n' ∉ name.toList := by
  intro mem
  exact absurd (h.2.1 _ mem) (by decide)

theorem isKeyName_ofList_cons {c : Char} {rest : List Char} :
    IsKeyName (String.ofList (c :: rest)) ↔
      isIdentifierStart c = true ∧ rest.all isIdentifierRest = true := by
  simp only [IsKeyName, String.toList_ofList, List.forall_mem_cons, List.head?_cons,
    Option.mem_some_iff, forall_eq', List.all_eq_true, ← isIdentifierRest_iff,
    isIdentifierStart_iff]
  have filled : String.ofList (c :: rest) ≠ "" := by simp
  tauto

theorem isPlainKey_iff_dropFinalBreak :
    isPlainKey name = true ↔ IsKeyName (String.ofList (dropFinalBreak name.toList)) := by
  rw [isPlainKey]
  cases dropFinalBreak name.toList with
  | nil => exact iff_of_false Bool.false_ne_true fun h => h.1 rfl
  | cons c rest => rw [isKeyName_ofList_cons, Bool.and_eq_true]

theorem dropFinalBreak_append_break (cs : List Char) : dropFinalBreak (cs ++ ['\n']) = cs := by
  simp [dropFinalBreak]

theorem dropFinalBreak_of_not_mem {cs : List Char} (noBreak : '\n' ∉ cs) :
    dropFinalBreak cs = cs :=
  if_neg fun last => noBreak (List.mem_of_getLast? (beq_iff_eq.1 last))

/-- A name is written without quotes if it needs none, and also if a line feed ends it that it would
need none without. -/
theorem isPlainKey_iff : isPlainKey name = true ↔ IsKeyName name ∨ IsKeyWithBreak name := by
  rw [isPlainKey_iff_dropFinalBreak]
  constructor
  · intro plain
    by_cases last : name.toList.getLast? = some '\n'
    · refine .inr ⟨_, plain, String.toList_inj.1 ?_⟩
      have dropped : dropFinalBreak name.toList = name.toList.dropLast :=
        if_pos (beq_iff_eq.2 last)
      rw [String.toList_append, String.toList_ofList, dropped]
      exact (List.dropLast_append_getLast? _ last).symm
    · have whole : dropFinalBreak name.toList = name.toList :=
        if_neg fun h => last (beq_iff_eq.1 h)
      rw [whole, String.ofList_toList] at plain
      exact .inl plain
  · rintro (h | ⟨key, h, rfl⟩)
    · rwa [dropFinalBreak_of_not_mem h.not_mem_break, String.ofList_toList]
    · have text : (key ++ "\n").toList = key.toList ++ ['\n'] := String.toList_append
      rwa [text, dropFinalBreak_append_break, String.ofList_toList]

theorem IsKeyWithBreak.mem_break (h : IsKeyWithBreak name) : '\n' ∈ name.toList := by
  obtain ⟨key, -, rfl⟩ := h
  simp

/-! ### Keys -/

theorem isLiteralOf_quote (name : String) : IsLiteralOf (Json.quote name) name := by
  have text : (Json.quote name).toList =
      '"' :: ((Text.codes name.toList).flatMap Json.escapeCode ++ ['"']) := String.toList_ofList
  refine ⟨?_, ?_, Json.read_quote name⟩
  · rw [text, List.head?_cons]
  · rw [text, ← List.cons_append, List.getLast?_concat]

/-- A name with a line feed behind a key is its own key, and this key does not stand for it. -/
theorem IsKeyWithBreak.not_isKeyOf (h : IsKeyWithBreak name) :
    ¬IsKeyOf (propertyKey name) name := by
  have plain : propertyKey name = name := if_pos (isPlainKey_iff.2 (.inr h))
  rw [plain]
  rintro (⟨-, short⟩ | ⟨opens, -⟩)
  · exact short.not_mem_break h.mem_break
  · obtain ⟨key, ⟨filled, chars, -⟩, rfl⟩ := h
    rw [String.toList_append, List.head?_append_of_ne_nil _ (by simpa using filled)] at opens
    exact absurd (chars _ (List.mem_of_head? opens)) (by decide)

/-- A key stands for its name, unless a line feed ends a name that would need no quotes without
it. -/
theorem isKeyOf_propertyKey : IsKeyOf (propertyKey name) name ↔ ¬IsKeyWithBreak name := by
  constructor
  · exact fun stands h => h.not_isKeyOf stands
  · intro noBreak
    rw [propertyKey]
    split
    · next plain => exact .inl ⟨rfl, (isPlainKey_iff.1 plain).resolve_right noBreak⟩
    · exact .inr (isLiteralOf_quote name)

/-- Names with the same key are the same up to pairs of halves. -/
theorem joined_eq_of_propertyKey_eq (same : propertyKey name = propertyKey other) :
    joined name = joined other := by
  by_cases plain : isPlainKey name = true <;> by_cases plain' : isPlainKey other = true
  · rw [propertyKey, propertyKey, if_pos plain, if_pos plain'] at same
    rw [same]
  · rw [propertyKey, propertyKey, if_pos plain, if_neg plain'] at same
    rw [same, isPlainKey_quote] at plain
    cases plain
  · rw [propertyKey, propertyKey, if_neg plain, if_pos plain'] at same
    rw [← same, isPlainKey_quote] at plain'
    cases plain'
  · rw [propertyKey, propertyKey, if_neg plain, if_neg plain'] at same
    have read := Json.read_quote name
    rw [same, Json.read_quote] at read
    exact (Value.str.inj (Except.ok.inj read)).symm

/-- **What a key stands for.** The key of a name stands for it, unless a line feed ends a name that
would need no quotes without it. Reading a key leaves the UTF-16 units of its name as they are, and
the name itself if it has no pairs of halves; and names with the same key are read as the same. -/
theorem propertyKey_read (name : String) :
    (IsKeyOf (propertyKey name) name ↔ ¬IsKeyWithBreak name) ∧
      unitName (joined name) = unitName name ∧
      (Text.Kept name.toList → Json.Unpaired (Text.codes name.toList) → joined name = name) ∧
      ∀ other, propertyKey name = propertyKey other → joined name = joined other :=
  ⟨isKeyOf_propertyKey, Json.unitName_joined name, Json.joined_eq_self,
    fun _ same => joined_eq_of_propertyKey_eq same⟩

/-- A media type is read back from its key, and a character beyond the first plane has the key of
its two halves. -/
theorem propertyKey_read_of_content_type :
    Json.read (propertyKey "content-type") = .ok (.str "content-type") ∧
      joined (String.ofList (Text.ofCodes [0x1f600])) =
        joined (String.ofList (Text.ofCodes [0xd83d, 0xde00])) := by
  obtain ⟨key, -, whole, -⟩ := propertyKey_read "content-type"
  obtain ⟨-, -, -, apart⟩ := propertyKey_read (String.ofList (Text.ofCodes [0x1f600]))
  have noBreak : ¬IsKeyWithBreak "content-type" := fun h => absurd h.mem_break (by decide)
  have itself : joined "content-type" = "content-type" :=
    whole ⟨Text.codes "content-type".toList, by decide, by decide⟩ (by decide)
  refine ⟨?_, apart _ (by decide)⟩
  rcases key.2 noBreak with ⟨-, short⟩ | ⟨-, -, read⟩
  · exact absurd (short.2.1 '-' (by decide)) (by decide)
  · rwa [itself] at read

/-- A line feed behind a key stays where it is, and the key does not stand for it. -/
theorem key_with_break : propertyKey "id\n" = "id\n" ∧ ¬IsKeyOf (propertyKey "id\n") "id\n" := by
  have noQuotes : IsKeyName (String.ofList ['i', 'd']) := isKeyName_ofList_cons.2 (by decide)
  exact ⟨by decide, IsKeyWithBreak.not_isKeyOf ⟨_, noQuotes, by decide⟩⟩

end ClientGen.Name
