import ClientGen.Proofs.Crate.FieldNames
import ClientGen.Proofs.Document.Prepared

/-!
# Which names are identifiers

An identifier is a text of ASCII letters, digits and underscores that does not begin with a digit.
A keyword is none, but most keywords may be written as raw identifiers (`IsIdentifier`).

The names of a crate are put together from words, and words may begin with a digit: an underscore in
front of it does not belong to the words. So a name is an identifier exactly if its first letter or
digit is a letter, and if it is not one of the few keywords that cannot be raw.

* `isIdentifier_escapeKeyword_iff`: which names are identifiers once keywords are made raw.
* **The names of a model** (`isIdentifier_names_iff`): which ones are identifiers.
* Some are none (`not_isIdentifier_names`).
-/

namespace ClientGen.Crate

open Document (titledSchemas prepare_titledSchemas isTypeName_of_prepare)
open Name (IsTypeName words)
open Report (Yields yields_bind)
open Schema (Components)

/-! ### The language -/

/-- The keywords that the language uses. -/
def strictKeywords : List String := [
  "as", "async", "await", "break", "const", "continue", "crate", "dyn", "else", "enum", "extern",
  "false", "fn", "for", "if", "impl", "in", "let", "loop", "match", "mod", "move", "mut", "pub",
  "ref", "return", "self", "Self", "static", "struct", "super", "trait", "true", "type", "unsafe",
  "use", "where", "while"]

/-- The keywords that the language reserves for later. -/
def reservedKeywords : List String := [
  "abstract", "become", "box", "do", "final", "macro", "override", "priv", "try", "typeof",
  "unsized", "virtual", "yield"]

/-- The keywords that cannot be raw identifiers. -/
def pathKeywords : List String := ["self", "Self", "super", "crate"]

/-- Whether a text is a keyword of the language. -/
def IsKeyword (s : String) : Prop := s ∈ strictKeywords ∨ s ∈ reservedKeywords

instance (s : String) : Decidable (IsKeyword s) :=
  inferInstanceAs (Decidable (s ∈ strictKeywords ∨ s ∈ reservedKeywords))

/-- Whether a character may stand in an identifier. -/
def isWordChar (c : Char) : Bool := c.isAlphanum || c = '_'

/-- Whether a text is spelled like an identifier. -/
def isSpelled (s : String) : Bool :=
  match s.toList with
  | [] => false
  | c :: rest => (c.isAlpha || c = '_') && rest.all isWordChar

/-- Whether a text is an identifier of the language. -/
inductive IsIdentifier : String → Prop
  | plain {s} (spelled : isSpelled s = true) (free : ¬IsKeyword s) : IsIdentifier s
  | raw {s} (keyword : IsKeyword s) (free : s ∉ pathKeywords) : IsIdentifier ("r#" ++ s)

/-- The keywords that are made raw are those of the language. -/
theorem mem_keywords_iff (s : String) : s ∈ keywords ↔ IsKeyword s := by
  have same : keywords.Perm (strictKeywords ++ reservedKeywords) := by decide
  rw [same.mem_iff, List.mem_append]
  rfl

/-! ### Spelled names -/

theorem isWordChar_of_isAlphanum {c : Char} (letter : c.isAlphanum = true) :
    isWordChar c = true := by
  simp [isWordChar, letter]

theorem isWordChar_of_isSpelled {s : String} (spelled : isSpelled s = true) :
    ∀ c ∈ s.toList, isWordChar c = true := by
  unfold isSpelled at spelled
  split at spelled
  · cases spelled
  · next c rest text =>
    rw [Bool.and_eq_true, List.all_eq_true] at spelled
    rw [text]
    refine List.forall_mem_cons.2 ⟨?_, spelled.2⟩
    rcases Bool.or_eq_true _ _ ▸ spelled.1 with letter | underscore
    · exact isWordChar_of_isAlphanum (Name.isAlphanum_of_isAlpha letter)
    · simp [isWordChar, underscore]

/-- A text of letters, digits and underscores is spelled like an identifier if there is a first one,
which is no digit. -/
theorem isSpelled_iff {s : String} (chars : ∀ c ∈ s.toList, isWordChar c = true) :
    isSpelled s = true ↔ s ≠ "" ∧ s.toList.head?.any Char.isDigit = false := by
  unfold isSpelled
  split
  · next text =>
    have empty : s = "" := String.toList_eq_nil_iff.1 text
    exact iff_of_false Bool.false_ne_true fun both => both.1 empty
  · next c rest text =>
    rw [text] at chars
    obtain ⟨first, others⟩ := List.forall_mem_cons.1 chars
    have filled : s ≠ "" := by
      rintro rfl
      cases text
    have begins : (c.isAlpha || decide (c = '_')) = true ↔ c.isDigit = false := by
      rw [isWordChar, Bool.or_eq_true, decide_eq_true_eq] at first
      rcases first with letter | rfl
      · have digit := (Name.caseFacts_of_isAlphanum letter).digit_of_alpha
        have either : c.isAlpha = true ∨ c.isDigit = true := by simpa [Char.isAlphanum] using letter
        have other : c ≠ '_' := by
          rintro rfl
          cases letter
        simp only [other, decide_false, Bool.or_false]
        refine ⟨digit, fun noDigit => either.resolve_right ?_⟩
        simp [noDigit]
      · decide
    have all : rest.all isWordChar = true := List.all_eq_true.2 others
    rw [all, Bool.and_true, begins, text]
    simp [filled]

/-! ### Keywords -/

section Keywords

variable {s : String} (chars : ∀ c ∈ s.toList, isWordChar c = true)

include chars

theorem hash_not_mem : '#' ∉ s.toList := by
  intro mem
  have mark := chars '#' mem
  revert mark
  decide

theorem isIdentifier_iff : IsIdentifier s ↔ isSpelled s = true ∧ ¬IsKeyword s := by
  constructor
  · intro h
    cases h with
    | plain spelled free => exact ⟨spelled, free⟩
    | raw keyword free => exact absurd (hash_mem_raw _) (hash_not_mem chars)
  · intro h
    exact .plain h.1 h.2

omit chars in
theorem isIdentifier_raw_iff (keyword : IsKeyword s) :
    IsIdentifier ("r#" ++ s) ↔ s ∉ pathKeywords := by
  constructor
  · intro h
    generalize text : "r#" ++ s = t at h
    cases h with
    | plain spelled free =>
      have noHash := hash_not_mem (isWordChar_of_isSpelled spelled)
      exact absurd (hash_mem_raw s) (text ▸ noHash)
    | raw keyword free =>
      rwa [(String.append_right_inj "r#").1 text]
  · intro free
    exact .raw keyword free

omit chars in
theorem isSpelled_of_isKeyword (keyword : IsKeyword s) : isSpelled s = true := by
  have each : (∀ t ∈ strictKeywords, isSpelled t = true) ∧
      ∀ t ∈ reservedKeywords, isSpelled t = true := by decide
  exact keyword.elim (each.1 s) (each.2 s)

/-- Once keywords are made raw, a name is an identifier if it is spelled like one and is no keyword
that cannot be raw. -/
theorem isIdentifier_escapeKeyword_iff :
    IsIdentifier (escapeKeyword s) ↔ isSpelled s = true ∧ s ∉ pathKeywords := by
  by_cases keyword : IsKeyword s
  · rw [escapeKeyword_of_mem ((mem_keywords_iff s).2 keyword), isIdentifier_raw_iff keyword]
    exact (and_iff_right (isSpelled_of_isKeyword keyword)).symm
  · have free : s ∉ pathKeywords := by
      have each : ∀ t ∈ pathKeywords, IsKeyword t := by decide
      intro mem
      exact keyword (each s mem)
    rw [escapeKeyword_of_not_mem (mt (mem_keywords_iff s).1 keyword), isIdentifier_iff chars]
    simp [keyword, free]

end Keywords

/-! ### The first letter or digit -/

/-- Whether the first letter or digit of a name is a digit. -/
def beginsWithDigit (name : String) : Bool := (name.toList.find? Char.isAlphanum).any Char.isDigit

theorem isDigit_toLower {c : Char} (letter : c.isAlphanum = true) : c.toLower.isDigit = c.isDigit :=
  Name.of_isAlphanum (P := fun d => d.toLower.isDigit = d.isDigit) (by decide) letter

theorem isDigit_toUpper {c : Char} (letter : c.isAlphanum = true) : c.toUpper.isDigit = c.isDigit :=
  Name.of_isAlphanum (P := fun d => d.toUpper.isDigit = d.isDigit) (by decide) letter

/-- The first word begins with the first letter or digit. -/
theorem exists_of_words_cons {cs w : List Char} {ws : List (List Char)}
    (split : words cs = w :: ws) :
    ∃ d rest, cs.find? Char.isAlphanum = some d ∧ w = d.toLower :: rest := by
  have letters := Name.flatten_words cs
  rw [split] at letters
  obtain ⟨c, rest, rfl⟩ := List.exists_cons_of_ne_nil
    ((Name.areWords_words cs).filled w (split ▸ List.mem_cons_self))
  have first := congrArg List.head? letters
  rw [List.head?_map, List.head?_filter] at first
  cases found : cs.find? Char.isAlphanum with
  | none =>
    rw [found] at first
    cases first
  | some d =>
    rw [found] at first
    cases first
    exact ⟨d, rest, rfl, rfl⟩

theorem find?_of_words_nil {cs : List Char} (none : words cs = []) :
    cs.find? Char.isAlphanum = .none := by
  have letters := Name.flatten_words cs
  rw [none, List.flatten_nil, eq_comm, List.map_eq_nil_iff] at letters
  rw [← List.head?_filter, letters]
  rfl

theorem head?_snake (s : String) :
    (Name.snake s).toList.head? = (s.toList.find? Char.isAlphanum).map Char.toLower := by
  rw [Name.snake, Name.joinWords, String.toList_ofList]
  cases split : words s.toList with
  | nil =>
    rw [find?_of_words_nil split]
    rfl
  | cons w ws =>
    obtain ⟨d, rest, found, rfl⟩ := exists_of_words_cons split
    rw [Text.joinChars_cons_char, found]
    rfl

theorem toList_pascal_cons {s : String} {d : Char} {rest : List Char} {ws : List (List Char)}
    (split : words s.toList = (d.toLower :: rest) :: ws) : (Name.pascal s).toList =
      d.toLower.toUpper :: (rest ++ ws.flatMap Name.capitalize) := by
  rw [Name.pascal, String.toList_ofList, split]
  rfl

theorem any_isDigit_snake (s : String) :
    (Name.snake s).toList.head?.any Char.isDigit = beginsWithDigit s := by
  rw [head?_snake, beginsWithDigit]
  cases found : s.toList.find? Char.isAlphanum with
  | none => rfl
  | some c => exact isDigit_toLower (List.find?_some found)

theorem any_isDigit_pascal (s : String) :
    (Name.pascal s).toList.head?.any Char.isDigit = beginsWithDigit s := by
  rw [beginsWithDigit]
  cases split : words s.toList with
  | nil =>
    rw [find?_of_words_nil split, Name.pascal, split]
    rfl
  | cons w ws =>
    obtain ⟨d, rest, found, rfl⟩ := exists_of_words_cons split
    have letter : d.isAlphanum = true := List.find?_some found
    rw [toList_pascal_cons split, found]
    show d.toLower.toUpper.isDigit = d.isDigit
    rw [isDigit_toUpper (Name.isAlphanum_toLower letter), isDigit_toLower letter]

/-! ### Names of modules and fields -/

theorem isWordChar_snake (s : String) : ∀ c ∈ (Name.snake s).toList, isWordChar c = true := by
  intro c mem
  rw [Name.snake, Name.joinWords, String.toList_ofList] at mem
  rcases Name.mem_joinChars mem with rfl | ⟨w, listed, here⟩
  · decide
  · exact isWordChar_of_isAlphanum (Name.isAlphanum_of_mem_words listed here)

theorem isIdentifier_snake_iff {s : String} (filled : (words s.toList).isEmpty = false) :
    IsIdentifier (escapeKeyword (Name.snake s)) ↔
      beginsWithDigit s = false ∧ Name.snake s ∉ pathKeywords := by
  have some : Name.snake s ≠ "" := by
    intro none
    rw [isEmpty_snake_iff.1 (String.isEmpty_iff.2 none)] at filled
    cases filled
  rw [isIdentifier_escapeKeyword_iff (isWordChar_snake s), isSpelled_iff (isWordChar_snake s),
    any_isDigit_snake]
  simp [some]

/-- The name of a field is an identifier if the first letter or digit of its property is no digit
and its property has not the words of a keyword that cannot be raw. -/
theorem isIdentifier_fieldName_iff (name : String) : IsIdentifier (fieldName name) ↔
    beginsWithDigit name = false ∧ Name.snake name ∉ pathKeywords := by
  rw [fieldName_eq, namesake]
  by_cases none : (words name.toList).isEmpty = true
  · have field : IsIdentifier (escapeKeyword (Name.snake "field")) :=
      (isIdentifier_snake_iff (by decide)).2 (by decide)
    have noDigit : beginsWithDigit name = false := by
      rw [← any_isDigit_snake, String.isEmpty_iff.1 (isEmpty_snake_iff.2 none)]
      rfl
    have free : Name.snake name ∉ pathKeywords := by
      rw [String.isEmpty_iff.1 (isEmpty_snake_iff.2 none)]
      decide
    rw [if_pos none]
    exact iff_of_true field ⟨noDigit, free⟩
  · rw [if_neg none]
    exact isIdentifier_snake_iff (by simpa using none)

/-! ### Names of types and variants -/

/-- A name has the words of `self` exactly if its type is called `Self`. -/
theorem pascal_eq_self_iff {s : String} : Name.pascal s = "Self" ↔ Name.snake s = "self" := by
  have itself : Name.snake "self" = "self" ∧ Name.pascal "self" = "Self" := by decide
  constructor
  · intro same
    suffices camelled : Name.camel s = Name.camel "self" by
      have letters : ∀ c ∈ (Name.camel "self").toList, c.isAlpha = true :=
        List.all_eq_true.1 (by decide)
      have words := Name.words_eq_of_camel_eq (camelled ▸ letters) camelled
      exact (Name.apply_congr .snake words).trans itself.1
    rw [← String.toList_inj, Name.toList_camel]
    have text := congrArg String.toList same
    cases split : words s.toList with
    | nil =>
      rw [Name.pascal, split] at text
      cases text
    | cons w ws =>
      obtain ⟨d, rest, found, rfl⟩ := exists_of_words_cons split
      have cased := Name.caseFacts_of_isAlphanum (List.find?_some found)
      rw [toList_pascal_cons split] at text
      obtain ⟨first, others⟩ := List.cons.inj text
      -- The first letter is small, and the only small one of this capital.
      have small : d.toLower = 's' := by
        rw [← cased.toLower_toUpper, ← cased.toUpper_toLower, first]
        rfl
      rw [Name.camelParts, List.flatten_cons, ← List.flatMap_def, small, List.cons_append, others]
      decide
  · intro same
    have spelled : Name.snake s = Name.snake "self" := by rw [same, itself.1]
    have pascal : Name.pascal s = Name.pascal "self" :=
      Name.apply_congr .pascal (Name.joinWords_inj (by decide) spelled)
    rw [pascal, itself.2]

/-- The only keyword that is spelled like the name of a type. -/
theorem isKeyword_iff_of_isTypeName {s : String} (h : IsTypeName s) : IsKeyword s ↔ s = "Self" := by
  constructor
  · intro keyword
    have small : (∀ t ∈ strictKeywords, t = "Self" ∨ t.toList.head?.any Char.isLower = true) ∧
        ∀ t ∈ reservedKeywords, t = "Self" ∨ t.toList.head?.any Char.isLower = true := by
      decide
    refine (keyword.elim (small.1 s) (small.2 s)).resolve_right fun lower => ?_
    obtain ⟨c, rest, alphanum, large, text⟩ := h
    rw [text] at lower
    cases digit : c.isDigit with
    | true =>
      rw [digit] at lower
      cases lower
    | false =>
      rw [digit] at lower
      have upper := isLower_toUpper (alphanum c List.mem_cons_self)
      rw [large] at upper
      exact absurd (upper.symm.trans lower) Bool.false_ne_true
  · rintro rfl
    decide

theorem isSpelled_of_isTypeName {s : String} (h : IsTypeName s) : isSpelled s = true := by
  obtain ⟨c, rest, alphanum, large, text⟩ := h
  have chars : ∀ d ∈ s.toList, isWordChar d = true := by
    have letters : ∀ d ∈ c :: rest, isWordChar d = true := fun d mem =>
      isWordChar_of_isAlphanum (alphanum d mem)
    rw [text]
    split
    · exact List.forall_mem_cons.2 ⟨by decide, letters⟩
    · exact letters
  rw [isSpelled_iff chars, Ne, ← String.toList_eq_nil_iff, text]
  cases digit : c.isDigit with
  | true => exact ⟨List.cons_ne_nil _ _, rfl⟩
  | false => exact ⟨List.cons_ne_nil _ _, digit⟩

theorem isEmpty_words_of_isTypeName {s : String} (h : IsTypeName s) :
    (words s.toList).isEmpty = false := by
  obtain ⟨c, rest, alphanum, large, text⟩ := h
  rw [List.isEmpty_eq_false_iff]
  intro none
  have found := List.find?_eq_none.1 (find?_of_words_nil none) c
  rw [text] at found
  refine found ?_ (alphanum c List.mem_cons_self)
  split
  · exact List.mem_cons_of_mem _ List.mem_cons_self
  · exact List.mem_cons_self

theorem isIdentifier_iff_of_isTypeName {s : String} (h : IsTypeName s) :
    IsIdentifier s ↔ s ≠ "Self" := by
  have spelled := isSpelled_of_isTypeName h
  rw [isIdentifier_iff (isWordChar_of_isSpelled spelled), isKeyword_iff_of_isTypeName h]
  simp [spelled]

/-- A name that does not begin with a digit is that of a type as it is. -/
theorem typeName_eq_pascal {s : String} (filled : (Name.pascal s).isEmpty = false)
    (noDigit : beginsWithDigit s = false) : Name.typeName s = Name.pascal s := by
  rw [← any_isDigit_pascal] at noDigit
  simp [Name.typeName, Name.guardDigit, filled, noDigit]

theorem isEmpty_pascal {s : String} (filled : (words s.toList).isEmpty = false) :
    (Name.pascal s).isEmpty = false := by
  obtain ⟨w, ws, split⟩ := List.exists_cons_of_ne_nil (List.isEmpty_eq_false_iff.1 filled)
  obtain ⟨d, rest, -, rfl⟩ := exists_of_words_cons split
  rw [Bool.eq_false_iff]
  intro none
  have text := toList_pascal_cons split
  rw [String.isEmpty_iff.1 none] at text
  cases text

theorem isIdentifier_pascal_iff {s : String} (filled : (words s.toList).isEmpty = false) :
    IsIdentifier (Name.pascal s) ↔ beginsWithDigit s = false ∧ Name.snake s ≠ "self" := by
  have chars : ∀ c ∈ (Name.pascal s).toList, isWordChar c = true := fun c mem =>
    isWordChar_of_isAlphanum (Name.isAlphanum_pascal s c mem)
  cases digit : beginsWithDigit s with
  | true =>
    rw [isIdentifier_iff chars, isSpelled_iff chars, any_isDigit_pascal, digit]
    simp
  | false =>
    have same := typeName_eq_pascal (isEmpty_pascal filled) digit
    rw [← same, isIdentifier_iff_of_isTypeName (Name.isTypeName_typeName s), same,
      Ne, pascal_eq_self_iff]
    simp

theorem isTypeName_variantBase (value : String) : IsTypeName (variantBase value) := by
  unfold variantBase
  rw [pascal_identifierText]
  dsimp only
  split
  · exact ⟨'E', ['m', 'p', 't', 'y'], List.all_eq_true.1 rfl, rfl, rfl⟩
  · next filled =>
    split
    · refine ⟨'V', ['a', 'l', 'u', 'e'] ++ (Name.pascal value).toList, ?_, rfl, ?_⟩
      · intro c mem
        rw [← List.cons_append, List.mem_append] at mem
        rcases mem with mem | mem
        · exact List.all_eq_true.1 (by decide : "Value".toList.all Char.isAlphanum = true) c mem
        · exact Name.isAlphanum_pascal value c mem
      · rw [String.toList_append]
        rfl
    · next noDigit =>
      rw [← typeName_eq_pascal (by simpa using filled)
        (any_isDigit_pascal value ▸ Bool.eq_false_iff.2 noDigit)]
      exact Name.isTypeName_typeName value

theorem variantBase_eq_self_iff {value : String} :
    variantBase value = "Self" ↔ Name.snake value = "self" := by
  rw [← pascal_eq_self_iff, variantBase, pascal_identifierText]
  split
  · next none =>
    rw [String.isEmpty_iff.1 none]
    decide
  · split
    · next digit =>
      refine iff_of_false ?_ ?_
      · intro same
        have text := congrArg String.toList same
        rw [String.toList_append] at text
        cases text
      · intro same
        rw [same] at digit
        revert digit
        decide
    · rfl

/-- **Which names of variants are identifiers**: all but that of the first one with the words of
`self`, unless its name is used. -/
theorem isIdentifier_variant_iff {used texts : List String} {before after : List EnumVariant}
    {v : EnumVariant} (listed : variantsAfter used texts = before ++ v :: after) :
    IsIdentifier v.name ↔ ¬(Name.snake v.value = "self" ∧ "Self" ∉ used ∧
      ∀ u ∈ before, Name.snake u.value ≠ "self") := by
  have noDigit : Name.endsInDigit "Self" = false := by decide
  induction before generalizing used texts with
  | nil =>
    cases texts with
    | nil => cases listed
    | cons value rest =>
      cases listed
      dsimp only
      rw [isIdentifier_iff_of_isTypeName ((isTypeName_variantBase value).distinctFrom used),
        Ne, Name.distinctFrom_eq_iff noDigit, variantBase_eq_self_iff]
      simp
  | cons u before ih =>
    cases texts with
    | nil => cases listed
    | cons value rest =>
      -- What is used after the first variant is what was used, and the name of the variant.
      have first := Name.mem_or_distinctFrom_iff noDigit used (variantBase value)
      obtain ⟨rfl, behind⟩ := List.cons.inj listed
      have free : "Self" ∉ Name.distinctFrom used (variantBase value) :: used ↔
          "Self" ∉ used ∧ Name.snake value ≠ "self" := by
        rw [List.mem_cons, or_comm, eq_comm (a := "Self"), first, variantBase_eq_self_iff, not_or]
      refine (ih behind).trans ?_
      rw [free, List.forall_mem_cons, and_assoc]

/-! ### Models -/

section Models

variable {components : Components} {name : String} {schema : Value} {m : Model}

theorem variants_modelOf (components : Components) (name : String) (schema : Value) :
    Yields (fun m => ∀ variants, m.shape = .enum variants → ∃ texts, variants =
      variantsAfter [] texts) (modelOf components name schema) := by
  have other {m : Model} (none : ∀ variants, m.shape ≠ .enum variants) :
      ∀ variants, m.shape = .enum variants → ∃ texts, variants = variantsAfter [] texts := by
    intro variants shape
    exact absurd shape (none variants)
  unfold modelOf
  split
  · refine yields_bind fun read => ?_
    dsimp only
    split
    · refine .pure fun variants shape => ?_
      cases shape
      exact ⟨_, rfl⟩
    · split
      · refine yields_bind fun required => yields_bind fun fields => .pure (other ?_)
        rintro variants ⟨⟩
      · refine yields_bind fun type => .pure (other ?_)
        rintro variants ⟨⟩
  · refine .pure (other ?_)
    rintro variants ⟨⟩

/-- The name of a field of a struct is the one that its property gets. -/
theorem name_of_mem_fields {fields : List Field}
    (built : (modelOf components name schema).result = .ok m) (shape : m.shape = .struct fields)
    {f : Field} (mem : f ∈ fields) : f.name = fieldName f.wireName := by
  cases typedBy_modelOf built with
  | enum _ shape' => cases shape.symm.trans shape'
  | typeAlias _ _ shape' => cases shape.symm.trans shape'
  | struct outlined typed shape' =>
    cases shape.symm.trans shape'
    obtain ⟨p, -, -, same⟩ := exists_of_forall₂_right (forall₂_fieldNames typed) mem
    exact same

end Models

/-- **Which names of a model are identifiers.** The type, the module and the fields have one unless
what they are named after begins with a digit, or has the words of a keyword that cannot be raw. Of
the variants, only the first one with the words of `self` has none. -/
theorem isIdentifier_names_iff {d d' : Document} (prepared : d.prepare.result = .ok d')
    {c : String × Value} (mem : c ∈ d'.schemas) {m : Model}
    (built : (modelOf d'.schemas c.1 c.2).result = .ok m) :
    (IsIdentifier m.typeName ↔ beginsWithDigit m.name = false ∧ Name.snake m.name ≠ "self") ∧
    (IsIdentifier m.moduleName ↔
      beginsWithDigit m.name = false ∧ Name.snake m.name ∉ pathKeywords) ∧
    (∀ fields, m.shape = .struct fields → ∀ f ∈ fields, (IsIdentifier f.name ↔
      beginsWithDigit f.wireName = false ∧ Name.snake f.wireName ∉ pathKeywords)) ∧
    ∀ before v after, m.shape = .enum (before ++ v :: after) → (IsIdentifier v.name ↔
      ¬(Name.snake v.value = "self" ∧ ∀ u ∈ before, Name.snake u.value ≠ "self")) := by
  have own : m.name = c.1 := modelOf_name d'.schemas c.1 c.2 m built
  have filled : (words m.name.toList).isEmpty = false :=
    isEmpty_words_of_isTypeName (own ▸ isTypeName_of_prepare prepared c mem)
  refine ⟨isIdentifier_pascal_iff filled, isIdentifier_snake_iff filled, ?_, ?_⟩
  · intro fields shape f listed
    rw [name_of_mem_fields built shape listed]
    exact isIdentifier_fieldName_iff f.wireName
  · intro before v after shape
    obtain ⟨texts, listed⟩ := variants_modelOf d'.schemas c.1 c.2 m built _ shape
    have each := isIdentifier_variant_iff listed.symm
    simpa using each

/-- The names of the fields of each component of a document. -/
def fieldNamesIn (d : Document) : List (Except Failure (Option (List String))) :=
  d.schemas.map fun c => fieldNamesOf d.schemas c.1 c.2

theorem exists_of_fieldNamesIn {d : Document} {names : List String}
    (named : fieldNamesIn d = [.ok (some names)]) :
    ∃ c ∈ d.schemas, ∃ m fields, (modelOf d.schemas c.1 c.2).result = .ok m ∧
      m.shape = .struct fields ∧ fields.map (·.name) = names := by
  have mem : .ok (some names) ∈ fieldNamesIn d := by
    rw [named]
    exact List.mem_cons_self
  obtain ⟨c, listed, named⟩ := List.mem_map.1 mem
  exact ⟨c, listed, exists_of_fieldNamesOf named⟩

theorem isIdentifier_names_iff_of_pet :
    let d := titledSchemas [("pet", objectNamed ["type", "pet name"])]
    ∃ d' c m fields, d.prepare.result = .ok d' ∧ c ∈ d'.schemas ∧
      (modelOf d'.schemas c.1 c.2).result = .ok m ∧ m.shape = .struct fields ∧
      fields.map (·.name) = ["r#type", "pet_name"] ∧
      (IsIdentifier m.typeName ↔ beginsWithDigit m.name = false ∧ Name.snake m.name ≠ "self") ∧
      (IsIdentifier m.moduleName ↔
        beginsWithDigit m.name = false ∧ Name.snake m.name ∉ pathKeywords) ∧
      (∀ fields, m.shape = .struct fields → ∀ f ∈ fields, (IsIdentifier f.name ↔
        beginsWithDigit f.wireName = false ∧ Name.snake f.wireName ∉ pathKeywords)) ∧
      ∀ before v after, m.shape = .enum (before ++ v :: after) → (IsIdentifier v.name ↔
        ¬(Name.snake v.value = "self" ∧ ∀ u ∈ before, Name.snake u.value ≠ "self")) := by
  intro d
  have prepared := prepare_titledSchemas (⟨by decide, by decide, by decide⟩ : d.IsValid)
    (by decide) (by decide) (by decide)
  have named : fieldNamesIn d.renamed.normalizedSchemas = [.ok (some ["r#type", "pet_name"])] := by
    decide
  obtain ⟨c, mem, m, fields, built, shape, names⟩ := exists_of_fieldNamesIn named
  exact ⟨_, c, m, fields, prepared, mem, built, shape, names,
    isIdentifier_names_iff prepared mem built⟩

/-- A struct with two fields whose names are no identifiers. -/
theorem not_isIdentifier_names :
    let d := titledSchemas [("login", objectNamed ["2fa", "self"])]
    ∃ d' c m fields, d.prepare.result = .ok d' ∧ c ∈ d'.schemas ∧
      (modelOf d'.schemas c.1 c.2).result = .ok m ∧ m.shape = .struct fields ∧
      fields.map (·.name) = ["2fa", "r#self"] ∧ ¬IsIdentifier "2fa" ∧ ¬IsIdentifier "r#self" := by
  intro d
  have prepared := prepare_titledSchemas (⟨by decide, by decide, by decide⟩ : d.IsValid)
    (by decide) (by decide) (by decide)
  have named : fieldNamesIn d.renamed.normalizedSchemas = [.ok (some ["2fa", "r#self"])] := by
    decide
  obtain ⟨c, mem, m, fields, built, shape, names⟩ := exists_of_fieldNamesIn named
  refine ⟨_, c, m, fields, prepared, mem, built, shape, names, ?_, ?_⟩
  · have chars : ∀ c ∈ "2fa".toList, isWordChar c = true := List.all_eq_true.1 (by decide)
    rw [isIdentifier_iff chars]
    decide
  · show ¬IsIdentifier ("r#" ++ "self")
    rw [isIdentifier_raw_iff (by decide)]
    decide

end ClientGen.Crate
