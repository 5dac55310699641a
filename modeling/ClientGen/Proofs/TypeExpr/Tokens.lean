import ClientGen.Proofs.Name.Key
import ClientGen.TypeExpr.Layout

/-!
# Words and marks

A printed type as a sequence of words and marks (`scan`). Quoted text is one word with its quotes,
blank space between words and marks is left out, and so is a semicolon before a closing brace.
Reading goes from left to right and needs to know only whether it is inside quotes; what stands in
front of a word or a mark does not change how it is read (`scan_unit`, `scan_mark`, `scan_blank`).

The words and marks of a type itself, as what it puts in front of those that follow (`tokens`), are
the same however the type is laid out. Members of lists have theirs one by one.
-/

namespace ClientGen.TypeExpr

/-- A word, or a mark between words. -/
inductive Token where
  | word (cs : List Char)
  | mark (c : Char)
deriving DecidableEq, Repr

/-- Whether a character separates words and is left out. -/
def isGap (c : Char) : Bool := c == ' ' || c == '\n'

/-- Whether a character stands for itself. -/
def isMark (c : Char) : Bool :=
  ['<', '>', '[', ']', '(', ')', '\x7b', '\x7d', ',', ';', ':', '?', '|', '&', '='].contains c

/-- Whether a character is part of a word outside of quotes. -/
def isWordChar (c : Char) : Bool := !isGap c && !isMark c && c != '"'

/-- Whether characters begin with one of a word. -/
def startsWord (cs : List Char) : Bool := cs.head?.any isWordChar

/-- Puts a character in front of the first word. -/
def glue (c : Char) : List Token → List Token
  | .word cs :: after => .word (c :: cs) :: after
  | after => .word [c] :: after

/-- Puts a mark in front of what follows; a semicolon before a closing brace is left out. -/
def putMark (c : Char) (after : List Token) : List Token :=
  if c = ';' ∧ after.head? = some (.mark '\x7d') then after else .mark c :: after

/-- Where a character stands: outside of quotes, between them, or behind a backslash there. -/
inductive Place where
  | outside
  | quoted
  | escaped

/-- The words and marks of characters. -/
def scan : Place → List Char → List Token
  | _, [] => []
  | .outside, c :: rest =>
    if isGap c then scan .outside rest
    else if isMark c then putMark c (scan .outside rest)
    else if c = '"' then glue c (scan .quoted rest)
    else if startsWord rest then glue c (scan .outside rest)
    else .word [c] :: scan .outside rest
  | .quoted, c :: rest =>
    if c = '"' then .word [c] :: scan .outside rest
    else if c = '\\' then glue c (scan .escaped rest)
    else glue c (scan .quoted rest)
  | .escaped, c :: rest => glue c (scan .quoted rest)

theorem scan_gap {c : Char} (gap : isGap c = true) (rest : List Char) :
    scan .outside (c :: rest) = scan .outside rest := by
  rw [scan, if_pos gap]

theorem not_isGap_of_isMark {c : Char} (mark : isMark c = true) : isGap c = false := by
  rw [isGap, Bool.or_eq_false_iff, beq_eq_false_iff_ne, beq_eq_false_iff_ne]
  constructor
  · rintro rfl
    nomatch mark
  · rintro rfl
    nomatch mark

theorem scan_mark {c : Char} (mark : isMark c = true) (rest : List Char) :
    scan .outside (c :: rest) = putMark c (scan .outside rest) := by
  rw [scan, not_isGap_of_isMark mark, if_neg nofun, if_pos mark]

theorem putMark_of_ne {c : Char} (h : c ≠ ';') (after : List Token) :
    putMark c after = .mark c :: after :=
  if_neg fun both => h both.1

theorem putMark_word (c : Char) (cs : List Char) (after : List Token) :
    putMark c (.word cs :: after) = .mark c :: .word cs :: after :=
  if_neg fun both => nomatch both.2

theorem putMark_closing (after : List Token) :
    putMark ';' (.mark '\x7d' :: after) = .mark '\x7d' :: after :=
  if_pos ⟨rfl, rfl⟩

/-! ### Words -/

/-- Whether characters are a word outside of quotes. -/
def IsWord (cs : List Char) : Prop := cs ≠ [] ∧ ∀ c ∈ cs, isWordChar c = true

theorem isWord_iff {cs : List Char} : IsWord cs ↔ cs ≠ [] ∧ cs.all isWordChar = true := by
  rw [IsWord, List.all_eq_true]

instance (cs : List Char) : Decidable (IsWord cs) := decidable_of_iff' _ isWord_iff

/-- Whether characters go on up to the quote that closes them and no further. -/
inductive ClosesQuote : List Char → Prop
  | quote : ClosesQuote ['"']
  | escape (c : Char) {cs : List Char} : ClosesQuote cs → ClosesQuote ('\\' :: c :: cs)
  | char {c : Char} {cs : List Char} :
    c ≠ '"' → c ≠ '\\' → ClosesQuote cs → ClosesQuote (c :: cs)

/-- Whether characters are read as one word, which may be quoted text. -/
def IsUnit (cs : List Char) : Prop := IsWord cs ∨ ∃ body, cs = '"' :: body ∧ ClosesQuote body

theorem scan_wordChar {c : Char} (h : isWordChar c = true) (rest : List Char) :
    scan .outside (c :: rest) =
      if startsWord rest then glue c (scan .outside rest)
      else .word [c] :: scan .outside rest := by
  rw [isWordChar, Bool.and_eq_true, Bool.and_eq_true, Bool.not_eq_true', Bool.not_eq_true',
    bne_iff_ne] at h
  rw [scan, if_neg (by rw [h.1.1]; nofun), if_neg (by rw [h.1.2]; nofun), if_neg h.2]

theorem scan_word {cs : List Char} (word : IsWord cs) {rest : List Char}
    (ended : startsWord rest = false) :
    scan .outside (cs ++ rest) = .word cs :: scan .outside rest := by
  obtain ⟨nonempty, all⟩ := word
  induction cs with
  | nil => exact absurd rfl nonempty
  | cons c cs ih =>
    obtain ⟨first, others⟩ := List.forall_mem_cons.1 all
    rw [List.cons_append, scan_wordChar first]
    cases cs with
    | nil =>
      rw [List.nil_append, ended]
      rfl
    | cons d cs =>
      have goesOn : startsWord (d :: cs ++ rest) = true := others d List.mem_cons_self
      rw [if_pos goesOn, ih (List.cons_ne_nil d cs) others]
      rfl

theorem scan_quoted {cs : List Char} (closes : ClosesQuote cs) (rest : List Char) :
    scan .quoted (cs ++ rest) = .word cs :: scan .outside rest := by
  induction closes with
  | quote => rfl
  | escape c _ ih =>
    rw [List.cons_append, List.cons_append, scan, if_neg (by decide), if_pos rfl, scan, ih]
    rfl
  | char noQuote noEscape _ ih =>
    rw [List.cons_append, scan, if_neg noQuote, if_neg noEscape, ih]
    rfl

/-- What is read as one word is so in front of everything that does not go on with it. -/
theorem scan_unit {cs : List Char} (h : IsUnit cs) {rest : List Char}
    (ended : startsWord rest = false) :
    scan .outside (cs ++ rest) = .word cs :: scan .outside rest := by
  rcases h with word | ⟨body, rfl, closes⟩
  · exact scan_word word ended
  · rw [List.cons_append, scan, if_neg (by decide), if_neg (by decide), if_pos rfl,
      scan_quoted closes]
    rfl

theorem ClosesQuote.getLast {cs : List Char} (h : ClosesQuote cs) : cs.getLast? = some '"' := by
  induction h with
  | quote => rfl
  | @escape c cs closes ih =>
    cases cs with
    | nil => nomatch closes
    | cons d cs => rwa [List.getLast?_cons_cons, List.getLast?_cons_cons]
  | @char c cs _ _ closes ih =>
    cases cs with
    | nil => nomatch closes
    | cons d cs => rwa [List.getLast?_cons_cons]

/-- A word does not end in a space. -/
theorem IsUnit.getLast_ne_space {cs : List Char} (h : IsUnit cs) : cs.getLast? ≠ some ' ' := by
  intro last
  rcases h with ⟨-, all⟩ | ⟨body, rfl, closes⟩
  · exact absurd (all ' ' (List.mem_of_getLast? last)) (by decide)
  · cases body with
    | nil => nomatch closes
    | cons c cs =>
      rw [List.getLast?_cons_cons, closes.getLast] at last
      exact absurd last (by decide)

/-! ### Names and keys -/

theorem isWordChar_of_isIdentifierRest {c : Char} (h : Name.isIdentifierRest c = true) :
    isWordChar c = true := by
  have other (d : Char) (noPart : Name.isIdentifierRest d = false) : c ≠ d := by
    rintro rfl
    rw [h] at noPart
    nomatch noPart
  have noGap : isGap c = false := by
    rw [isGap, Bool.or_eq_false_iff, beq_eq_false_iff_ne, beq_eq_false_iff_ne]
    exact ⟨other ' ' rfl, other '\n' rfl⟩
  have noMark : isMark c = false := by
    rw [isMark, List.contains_eq_mem, decide_eq_false_iff_not]
    intro mem
    have none : ['<', '>', '[', ']', '(', ')', '\x7b', '\x7d', ',', ';', ':', '?', '|', '&',
        '='].all (fun d => !Name.isIdentifierRest d) = true := by decide
    have noPart := List.all_eq_true.1 none c mem
    rw [h] at noPart
    nomatch noPart
  have noQuote : (c != '"') = true := bne_iff_ne.2 (other '"' rfl)
  rw [isWordChar, noGap, noMark, noQuote]
  rfl

theorem closesQuote_unitEscape (n : Nat) {cs : List Char} (closes : ClosesQuote cs) :
    ClosesQuote (Json.unitEscape n ++ cs) := by
  have digit (m : Nat) : Json.hexDigit (m % 16) ≠ '"' ∧ Json.hexDigit (m % 16) ≠ '\\' := by
    have all : ∀ d < 16, Json.hexDigit d ≠ '"' ∧ Json.hexDigit d ≠ '\\' := by decide
    exact all _ (Nat.mod_lt m (by decide))
  simp only [Json.unitEscape, Json.hexDigits, List.nil_append, List.cons_append]
  exact .escape _ (.char (digit _).1 (digit _).2 (.char (digit _).1 (digit _).2
    (.char (digit _).1 (digit _).2 (.char (digit _).1 (digit _).2 closes))))

theorem closesQuote_escapeCode {n : Nat} {cs : List Char} (closes : ClosesQuote cs) :
    ClosesQuote (Json.escapeCode n ++ cs) := by
  rcases Name.escapeCode_cases n with
    ⟨e, c, -, -, escaped⟩ | ⟨c, noQuote, noEscape, -, plain⟩ | units
  · rw [escaped]
    exact .escape e closes
  · rw [plain]
    exact .char noQuote noEscape closes
  · rw [units, Json.unitEscapes]
    split
    · exact closesQuote_unitEscape n closes
    · rw [List.append_assoc]
      exact closesQuote_unitEscape _ (closesQuote_unitEscape _ closes)

theorem isUnit_quote (s : String) : IsUnit (Json.quote s).toList := by
  rw [Json.quote, String.toList_ofList]
  refine .inr ⟨_, rfl, ?_⟩
  induction Text.codes s.toList with
  | nil => exact .quote
  | cons n ns ih =>
    rw [List.flatMap_cons, List.append_assoc]
    exact closesQuote_escapeCode ih

/-- The key of a property is one word. -/
theorem isUnit_propertyKey {name : String} (noBreak : '\n' ∉ name.toList) :
    IsUnit (Name.propertyKey name).toList := by
  rw [Name.propertyKey]
  split
  · next plain =>
    have whole : Name.dropFinalBreak name.toList = name.toList :=
      if_neg fun last => noBreak (List.mem_of_getLast? (beq_iff_eq.1 last))
    rw [Name.isPlainKey, whole] at plain
    refine .inl ?_
    cases chars : name.toList with
    | nil =>
      rw [chars] at plain
      exact absurd plain Bool.false_ne_true
    | cons c rest =>
      rw [chars, Bool.and_eq_true, List.all_eq_true] at plain
      obtain ⟨first, others⟩ := plain
      refine ⟨List.cons_ne_nil c rest, List.forall_mem_cons.2 ⟨?_, ?_⟩⟩
      · refine isWordChar_of_isIdentifierRest ?_
        rw [Name.isIdentifierStart] at first
        rw [Name.isIdentifierRest, Char.isAlphanum]
        revert first
        cases c.isAlpha <;> cases c.isDigit <;> simp
      · exact fun d mem => isWordChar_of_isIdentifierRest (others d mem)
  · exact isUnit_quote name

/-! ### Words and marks of a type -/

/-- Several words and marks in front of others, with a mark between neighbours. -/
def separated (c : Char) : List (List Token → List Token) → List Token → List Token
  | [], after => after
  | [f], after => f after
  | f :: fs, after => f (.mark c :: separated c fs after)

/-- Parentheses around words and marks, where they are needed. -/
def inParentheses (needed : Bool) (f : List Token → List Token) (after : List Token) :
    List Token :=
  if needed then .mark '(' :: f (.mark ')' :: after) else f after

/-- What stands between a name and its type. -/
def typeMark (isOptional : Bool) (after : List Token) : List Token :=
  if isOptional then .mark '?' :: .mark ':' :: after else .mark ':' :: after

/-- A key in front of a type. -/
def keyTokens (name : String) (isOptional isReadonly : Bool) (after : List Token) : List Token :=
  let key := .word (Name.propertyKey name).toList :: typeMark isOptional after
  if isReadonly then .word "readonly".toList :: key else key

mutual

/-- The words and marks of a type. -/
def tokens : TypeExpr → List Token → List Token
  | primitive p, after => .word p.keyword.toList :: after
  | ref name [], after => .word name.toList :: after
  | ref name (a :: as), after =>
    .word name.toList :: .mark '<' :: separated ',' (tokens a :: tokensOfList as)
      (.mark '>' :: after)
  | generic name, after => .word name.toList :: after
  | literal text, after => .word text.toList :: after
  | array element, after =>
    .word "Array".toList :: .mark '<' :: tokens element (.mark '>' :: after)
  | tuple elements, after =>
    .mark '[' :: separated ',' (tokensOfList elements) (.mark ']' :: after)
  | union members, after => separated '|' (tokensOfUnion members) after
  | inter members, after => separated '&' (tokensOfInter members) after
  | function arguments result, after =>
    .mark '(' :: separated ',' (tokensOfArguments arguments)
      (.mark ')' :: .mark '=' :: .mark '>' :: tokensOfResult result after)
  | object members, after =>
    .mark '\x7b' :: separated ';' (tokensOfMembers members) (.mark '\x7d' :: after)
  | index key value, after =>
    .mark '\x7b' :: .mark '[' :: .word "key".toList :: .mark ':' :: .word key.toList
      :: .mark ']' :: .mark ':' :: tokens value (.mark '\x7d' :: after)

/-- The words and marks of types. -/
def tokensOfList : List TypeExpr → List (List Token → List Token)
  | [] => []
  | t :: rest => tokens t :: tokensOfList rest

/-- The words and marks of the members of a union. -/
def tokensOfUnion : List TypeExpr → List (List Token → List Token)
  | [] => []
  | t :: rest => inParentheses t.wrapsInUnion (tokens t) :: tokensOfUnion rest

/-- The words and marks of the members of an intersection. -/
def tokensOfInter : List TypeExpr → List (List Token → List Token)
  | [] => []
  | t :: rest => inParentheses t.wrapsInInter (tokens t) :: tokensOfInter rest

/-- The words and marks of parameters. -/
def tokensOfArguments : List (Argument TypeExpr) → List (List Token → List Token)
  | [] => []
  | ⟨name, t, o⟩ :: rest =>
    (fun after => .word name.toList :: typeMark o (tokens t after)) :: tokensOfArguments rest

/-- The words and marks of properties. -/
def tokensOfMembers : List (Member TypeExpr) → List (List Token → List Token)
  | [] => []
  | ⟨name, t, o, r⟩ :: rest =>
    (fun after => keyTokens name o r (tokens t after)) :: tokensOfMembers rest

/-- The words and marks of a result. -/
def tokensOfResult : Option TypeExpr → List Token → List Token
  | none, after => .word "void".toList :: after
  | some t, after => tokens t after

end

/-- The words and marks of a parameter. -/
def argumentTokens (a : Argument TypeExpr) (after : List Token) : List Token :=
  .word a.name.toList :: typeMark a.isOptional (tokens a.type after)

/-- The words and marks of a property. -/
def memberTokens (m : Member TypeExpr) (after : List Token) : List Token :=
  keyTokens m.name m.isOptional m.isReadonly (tokens m.type after)

theorem tokensOfList_eq (ts : List TypeExpr) : tokensOfList ts = ts.map tokens := by
  induction ts with
  | nil => rfl
  | cons t ts ih => rw [tokensOfList, ih, List.map_cons]

theorem tokensOfUnion_eq (ts : List TypeExpr) :
    tokensOfUnion ts = ts.map fun t => inParentheses t.wrapsInUnion (tokens t) := by
  induction ts with
  | nil => rfl
  | cons t ts ih => rw [tokensOfUnion, ih, List.map_cons]

theorem tokensOfInter_eq (ts : List TypeExpr) :
    tokensOfInter ts = ts.map fun t => inParentheses t.wrapsInInter (tokens t) := by
  induction ts with
  | nil => rfl
  | cons t ts ih => rw [tokensOfInter, ih, List.map_cons]

theorem tokensOfArguments_eq (as : List (Argument TypeExpr)) :
    tokensOfArguments as = as.map argumentTokens := by
  induction as with
  | nil => rfl
  | cons a as ih =>
    rw [tokensOfArguments, ih, List.map_cons]
    rfl

theorem tokensOfMembers_eq (ms : List (Member TypeExpr)) :
    tokensOfMembers ms = ms.map memberTokens := by
  induction ms with
  | nil => rfl
  | cons m ms ih =>
    rw [tokensOfMembers, ih, List.map_cons]
    rfl

theorem tokens_ref (name : String) (a : TypeExpr) (as : List TypeExpr) :
    tokens (ref name (a :: as)) = fun after =>
      .word name.toList :: .mark '<' :: separated ',' ((a :: as).map tokens)
        (.mark '>' :: after) := by
  funext after
  rw [tokens, ← tokensOfList, tokensOfList_eq]

theorem tokens_tuple (elements : List TypeExpr) :
    tokens (tuple elements) = fun after =>
      .mark '[' :: separated ',' (elements.map tokens) (.mark ']' :: after) := by
  funext after
  rw [tokens, tokensOfList_eq]

theorem tokens_union (members : List TypeExpr) :
    tokens (union members) =
      separated '|' (members.map fun t => inParentheses t.wrapsInUnion (tokens t)) := by
  funext after
  rw [tokens, tokensOfUnion_eq]

theorem tokens_inter (members : List TypeExpr) :
    tokens (inter members) =
      separated '&' (members.map fun t => inParentheses t.wrapsInInter (tokens t)) := by
  funext after
  rw [tokens, tokensOfInter_eq]

theorem tokens_function (arguments : List (Argument TypeExpr)) (result : Option TypeExpr) :
    tokens (function arguments result) = fun after =>
      .mark '(' :: separated ',' (arguments.map argumentTokens)
        (.mark ')' :: .mark '=' :: .mark '>' :: tokensOfResult result after) := by
  funext after
  rw [tokens, tokensOfArguments_eq]

theorem tokens_object (members : List (Member TypeExpr)) :
    tokens (object members) = fun after =>
      .mark '\x7b' :: separated ';' (members.map memberTokens) (.mark '\x7d' :: after) := by
  funext after
  rw [tokens, tokensOfMembers_eq]

end ClientGen.TypeExpr
