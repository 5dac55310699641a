import ClientGen.Proofs.Lists.Lookup
import ClientGen.Proofs.Source.Literals
import ClientGen.Proofs.Source.Placeholders

/-!
# Template literals of paths

The template literal of a path is read back (`readTemplate`): as UTF-16 units, which are text, and
as substitutions. A path is split at the placeholders of its parameters (`IsSplit`), and what is
read back should be its pieces, each placeholder as the substitution of the encoded parameter.

* A path has such a split, and **what is read back is exactly this split**, unless a dollar sign
  stands right before a placeholder without a parameter (`pathTemplate_read`).
* Text and placeholders are escaped one by one. So where a placeholder without a parameter follows a
  dollar sign, neither of the two is escaped, and together they open a substitution
  (`placeholder_is_substituted`).

A template literal is written character by character: each is escaped or not, depending on what
stands behind it (`written_cons`). Each character is then read by itself (`readPieces_char`), and a
placeholder with a parameter as one substitution (`readPieces_substitution`).
-/

namespace ClientGen.Source

/-! ### Reading template literals -/

/-- An element of a template literal: a UTF-16 unit of its text, or a substitution. -/
inductive TemplateItem where
  | unit (n : Nat)
  | substitution (expression : List Char)
deriving DecidableEq, Repr

/-- Whether a character opens or closes nothing in an expression, neither a brace nor a text or a
comment. -/
def isPlainCode (c : Char) : Bool := ['\x7b', '\x7d', '\'', '"', '\x60', '/'].all (· != c)

/-- The expression of a substitution, up to the brace that closes it. It is read only if this is the
first brace, and nothing is open in front of it. -/
def expression? (cs : List Char) : Option (List Char × List Char) :=
  (upToBrace? cs).filter fun r => !r.1.isEmpty && r.1.all isPlainCode

/-- A piece of a template literal. All ends of lines are line feeds in its text. -/
def templatePiece? : List Char → Option (List TemplateItem × List Char)
  | '\\' :: rest => (scriptEscape? rest).map fun r => (r.1.map .unit, r.2)
  | '$' :: '\x7b' :: rest => (expression? rest).map fun r => ([.substitution r.1], r.2)
  | '\r' :: '\n' :: rest => some ([.unit 10], rest)
  | '\r' :: rest => some ([.unit 10], rest)
  | c :: rest => some ((Name.units c.toNat).map .unit, rest)
  | [] => none

/-- The text and the substitutions of the template literal at the beginning of characters, and what
follows it. -/
def readTemplate : List Char → Option (List TemplateItem × List Char) :=
  readLiteral templatePiece? '\x60'

/-- Characters as text of a template literal. -/
def textItems (cs : List Char) : List TemplateItem := (utf16 cs).map .unit

theorem textItems_cons (c : Char) (cs : List Char) :
    textItems (c :: cs) = textItems [c] ++ textItems cs := by
  simp [textItems, utf16]

/-! ### How a path is written -/

/-- A character of text in a template literal; `opens` says whether the brace of text follows it. -/
def templateChar (c : Char) (opens : Bool) : List Char :=
  if c = '\\' ∨ c = '\x60' ∨ c = '$' ∧ opens = true then ['\\', c] else [c]

/-- Whether pieces begin with text that begins with a brace. -/
def opensText : List PathPiece → Bool
  | .text cs :: _ => cs.head? == some '\x7b'
  | _ => false

theorem escapeTemplate_cons (c : Char) (cs : List Char) :
    escapeTemplate (c :: cs) = templateChar c (cs.head? == some '\x7b') ++ escapeTemplate cs := by
  rw [escapeTemplate, templateChar]
  by_cases escaped : c = '\\' ∨ c = '\x60'
  · rw [if_pos escaped, if_pos (escaped.imp_right .inl)]
    rfl
  · obtain ⟨noEscape, noTick⟩ := not_or.1 escaped
    rw [if_neg escaped]
    simp only [noEscape, noTick, false_or, beq_iff_eq]
    split <;> rfl

/-- The expression that encodes the value of an identifier for a path. -/
def encoding (identifier : String) : String := "encodeURIComponent(String(" ++ identifier ++ "))"

section Written

variable (parameters : List (String × String))

/-- A piece of a path in its template literal. -/
def pieceText : PathPiece → List Char
  | .text cs => escapeTemplate cs
  | .placeholder name => placeholderText parameters.reverse name

/-- The characters of a path in its template literal. -/
def written (cs : List Char) : List Char := (pieces cs).flatMap (pieceText parameters)

theorem toList_pathTemplate (path : String) :
    (pathTemplate path parameters).toList =
      '\x60' :: (written parameters path.toList ++ ['\x60']) := by
  have same : pieceText parameters = fun
      | .text cs => escapeTemplate cs
      | .placeholder name => placeholderText parameters.reverse name := by
    funext piece
    cases piece <;> rfl
  rw [written, same]
  exact String.toList_ofList

theorem flatMap_consText (c : Char) (ps : List PathPiece) :
    (consText c ps).flatMap (pieceText parameters) =
      templateChar c (opensText ps) ++ ps.flatMap (pieceText parameters) := by
  have alone : (consText c ps) = .text [c] :: ps → opensText ps = false →
      (consText c ps).flatMap (pieceText parameters) =
        templateChar c (opensText ps) ++ ps.flatMap (pieceText parameters) := by
    intro written closed
    rw [written, closed, List.flatMap_cons, pieceText, escapeTemplate_cons]
    simp [escapeTemplate]
  cases ps with
  | nil => exact alone rfl rfl
  | cons piece ps =>
    cases piece with
    | placeholder name => exact alone rfl rfl
    | text cs =>
      rw [consText, List.flatMap_cons, List.flatMap_cons, pieceText, pieceText,
        escapeTemplate_cons, List.append_assoc, opensText]

/-- Text begins with a brace if the characters do and if no placeholder begins there. -/
theorem opensText_pieces_iff (cs : List Char) : opensText (pieces cs) = true ↔
    cs.head? = some '\x7b' ∧ ¬AtPlaceholder (fun _ => True) cs := by
  by_cases at' : AtPlaceholder (fun _ => True) cs
  · obtain ⟨name, after, rfl, placeholder, -⟩ := id at'
    rw [pieces_placeholder placeholder]
    exact iff_of_false Bool.false_ne_true fun both => both.2 at'
  · cases cs with
    | nil => exact iff_of_false Bool.false_ne_true fun both => Option.some_ne_none _ both.1.symm
    | cons c rest =>
      have begins : opensText (consText c (pieces rest)) = (some c == some '\x7b') := by
        rcases pieces rest with _ | ⟨_ | _, ps⟩ <;> rfl
      rw [pieces_cons at', begins, beq_iff_eq]
      exact (and_iff_left at').symm

theorem opensText_of_head? {cs : List Char} (next : cs.head? ≠ some '\x7b') :
    opensText (pieces cs) = false := by
  rw [Bool.eq_false_iff]
  exact fun opens => next ((opensText_pieces_iff cs).1 opens).1

theorem written_cons_of_not_at {c : Char} {rest : List Char}
    (none : ¬AtPlaceholder (fun _ => True) (c :: rest)) :
    written parameters (c :: rest) =
      templateChar c (opensText (pieces rest)) ++ written parameters rest := by
  rw [written, pieces_cons none, flatMap_consText]
  rfl

theorem written_placeholder {name : List Char} (placeholder : IsPlaceholder name)
    (after : List Char) :
    written parameters ('\x7b' :: (name ++ '\x7d' :: after)) =
      placeholderText parameters.reverse name ++ written parameters after := by
  rw [written, pieces_placeholder placeholder, List.flatMap_cons]
  rfl

/-- Characters without an opening brace are written one by one, and so is the brace behind them. -/
theorem written_upToBrace {cs : List Char} (noBrace : '\x7b' ∉ cs) (after : List Char) :
    written parameters (cs ++ '\x7d' :: after) =
      escapeTemplate (cs ++ ['\x7d']) ++ written parameters after := by
  have plain {c : Char} {rest : List Char} (other : c ≠ '\x7b') :
      ¬AtPlaceholder (fun _ => True) (c :: rest) := fun at' =>
    other (Option.some.inj at'.head?)
  induction cs with
  | nil =>
    rw [List.nil_append, written_cons_of_not_at _ (plain (by decide))]
    rfl
  | cons c cs ih =>
    have other : c ≠ '\x7b' := fun same => noBrace (same ▸ List.mem_cons_self)
    have noBrace' : '\x7b' ∉ cs := fun mem => noBrace (List.mem_cons_of_mem c mem)
    have next (rest : List Char) : (cs ++ '\x7d' :: rest).head? ≠ some '\x7b' :=
      head?_append_ne noBrace' (by simp)
    rw [List.cons_append, List.cons_append, written_cons_of_not_at _ (plain other),
      opensText_of_head? (next after), ih noBrace', escapeTemplate_cons,
      beq_eq_false_iff_ne.2 (next []), List.append_assoc]

/-- A character is written by itself where no placeholder of a parameter begins. -/
theorem written_cons {c : Char} {rest : List Char}
    (unknown : ¬AtPlaceholder (IsParameter parameters) (c :: rest)) :
    written parameters (c :: rest) =
      templateChar c (opensText (pieces rest)) ++ written parameters rest := by
  by_cases at' : AtPlaceholder (fun _ => True) (c :: rest)
  · obtain ⟨name, after, same, placeholder, -⟩ := at'
    have missing : parameters.reverse.lookup (String.ofList name) = none := by
      rw [List.lookup_eq_none_iff]
      intro pair mem
      rw [bne_iff_ne]
      intro same'
      refine unknown ⟨name, after, same, placeholder, ?_⟩
      unfold IsParameter
      rw [same']
      exact List.mem_map_of_mem (List.mem_reverse.1 mem)
    obtain ⟨rfl, rfl⟩ := List.cons.inj same
    rw [written_placeholder _ placeholder, placeholderText, missing,
      written_upToBrace _ placeholder.2.1, List.cons_append, escapeTemplate_cons, List.append_assoc]
    rfl
  · exact written_cons_of_not_at parameters at'

theorem toList_encoding (identifier : String) : (encoding identifier).toList =
    "encodeURIComponent(String(".toList ++ identifier.toList ++ "))".toList :=
  String.toList_append.trans (congrArg (· ++ _) String.toList_append)

theorem written_parameter {name : String} {identifier : String}
    (found : parameters.reverse.lookup name = some identifier)
    (placeholder : IsPlaceholder name.toList) (after : List Char) :
    written parameters ('\x7b' :: (name.toList ++ '\x7d' :: after)) =
      '$' :: '\x7b' :: ((encoding identifier).toList ++ '\x7d' :: written parameters after) := by
  have text : placeholderText parameters.reverse name.toList =
      "$\x7bencodeURIComponent(String(".toList ++ identifier.toList ++ "))\x7d".toList := by
    rw [placeholderText, String.ofList_toList, found]
  have opens : "$\x7bencodeURIComponent(String(".toList =
      ['$', '\x7b'] ++ "encodeURIComponent(String(".toList := by decide +kernel
  have closes : "))\x7d".toList = "))".toList ++ ['\x7d'] := by decide +kernel
  rw [written_placeholder _ placeholder, text, opens, closes, toList_encoding]
  simp only [List.cons_append, List.append_assoc, List.nil_append]

end Written

/-! ### Reading what is written -/

section Read

variable {c : Char} {rest : List Char}

/-- A character of text is read by itself, if no brace follows a dollar sign that is not escaped. -/
theorem readPieces_templateChar {opens : Bool} (noReturn : c ≠ '\r')
    (apart : c = '$' → opens = false → rest.head? ≠ some '\x7b') :
    readPieces templatePiece? '\x60' (templateChar c opens ++ rest) =
      (readPieces templatePiece? '\x60' rest).map fun r => (textItems [c] ++ r.1, r.2) := by
  unfold templateChar
  split
  · next escaped =>
    have piece : templatePiece? ('\\' :: c :: rest) = some (textItems [c], rest) := by
      rcases escaped with rfl | rfl | ⟨rfl, -⟩ <;> rfl
    exact readPieces_of_piece (by decide) piece (by simp)
  · next plain =>
    obtain ⟨noEscape, plain⟩ := not_or.1 plain
    obtain ⟨noTick, plain⟩ := not_or.1 plain
    have piece : templatePiece? (c :: rest) = some (textItems [c], rest) := by
      unfold templatePiece?
      split
      · next same => exact absurd (List.cons.inj same).1 noEscape
      · next same =>
        obtain ⟨rfl, rfl⟩ := List.cons.inj same
        exact absurd rfl (apart rfl (by simpa using plain))
      · next same => exact absurd (List.cons.inj same).1 noReturn
      · next same => exact absurd (List.cons.inj same).1 noReturn
      · next same =>
        obtain ⟨rfl, rfl⟩ := List.cons.inj same
        simp [textItems, utf16]
      · next same => cases same
    exact readPieces_of_piece noTick piece (Nat.le_refl _)

/-- An expression in which nothing opens is read as one substitution. -/
theorem readPieces_substitution {expression : List Char} (some : expression ≠ [])
    (plain : ∀ c ∈ expression, isPlainCode c = true) :
    readPieces templatePiece? '\x60' ('$' :: '\x7b' :: (expression ++ '\x7d' :: rest)) =
      (readPieces templatePiece? '\x60' rest).map fun r =>
        (.substitution expression :: r.1, r.2) := by
  have inside : ∀ c ∈ expression, (c != '\x7d') = true := by
    intro c mem
    rw [bne_iff_ne]
    rintro rfl
    exact absurd (plain _ mem) (by decide)
  have cut : upToBrace? (expression ++ '\x7d' :: rest) = .some (expression, rest) := by
    rw [upToBrace?, List.dropWhile_append_of_pos inside, List.takeWhile_append_of_pos inside,
      List.dropWhile_cons_of_neg (by decide), List.takeWhile_cons_of_neg (by decide),
      List.append_nil]
  have read : expression? (expression ++ '\x7d' :: rest) = .some (expression, rest) := by
    have all : expression.all isPlainCode = true := List.all_eq_true.2 plain
    rw [expression?, cut, Option.filter_some, all]
    simp [some]
  have piece : templatePiece? ('$' :: '\x7b' :: (expression ++ '\x7d' :: rest)) =
      .some ([.substitution expression], rest) := by
    rw [templatePiece?, read]
    rfl
  exact readPieces_of_piece (by decide) piece (by simp; omega)

/-- What begins with a dollar sign and a brace is not read as text. -/
theorem readPieces_dollar_brace {items : List TemplateItem} {after : List Char} :
    readPieces templatePiece? '\x60' ('$' :: '\x7b' :: rest) ≠
      some (textItems ['$'] ++ items, after) := by
  intro read
  rw [readPieces, if_neg (by decide), templatePiece?] at read
  cases found : expression? rest with
  | none =>
    rw [found] at read
    cases read
  | some r =>
    rw [found] at read
    dsimp only [Option.map_some] at read
    split at read
    · obtain ⟨r', -, same⟩ := Option.map_eq_some_iff.1 read
      obtain ⟨same, -⟩ := Prod.mk.inj same
      cases same
    · cases read

end Read

/-! ### What is read back -/

/-- What text and the segments behind it stand for in a template literal. -/
def splitItems (head : List Char) (segments : List Segment) : List TemplateItem :=
  textItems head ++ segments.flatMap fun s =>
    .substitution (encoding s.identifier).toList :: textItems s.text

section Back

variable {parameters : List (String × String)} {c : Char} {rest tail : List Char}

theorem isPlainCode_of_isIdentifierRest (h : Name.isIdentifierRest c = true) :
    isPlainCode c = true := by
  have none : ['\x7b', '\x7d', '\'', '"', '\x60', '/'].all (!Name.isIdentifierRest ·) = true := by
    decide
  refine List.all_eq_true.2 fun d mem => bne_iff_ne.2 ?_
  rintro rfl
  have noPart := List.all_eq_true.1 none _ mem
  rw [h] at noPart
  cases noPart

theorem isPlainCode_encoding {identifier : String}
    (letters : ∀ c ∈ identifier.toList, Name.isIdentifierRest c = true) :
    ∀ c ∈ (encoding identifier).toList, isPlainCode c = true := by
  have opens : "encodeURIComponent(String(".toList.all isPlainCode = true := by decide +kernel
  have closes : "))".toList.all isPlainCode = true := by decide +kernel
  rw [toList_encoding]
  simp only [List.forall_mem_append]
  exact ⟨⟨List.all_eq_true.1 opens, fun c mem => isPlainCode_of_isIdentifierRest (letters c mem)⟩,
    List.all_eq_true.1 closes⟩

theorem encoding_ne_nil (identifier : String) : (encoding identifier).toList ≠ [] := by
  rw [toList_encoding]
  simp

variable (distinct : (parameters.map (·.1)).Nodup)

include distinct

theorem lookup_reverse {name identifier : String} (mem : (name, identifier) ∈ parameters) :
    parameters.reverse.lookup name = some identifier := by
  have distinct' : (parameters.reverse.map (·.1)).Nodup := by
    rwa [List.map_reverse, List.nodup_reverse]
  exact (lookup_eq_some_iff_mem distinct').2 (List.mem_reverse.2 mem)

/-- What is written begins with a brace only if it is text that does. -/
theorem head?_written {rest : List Char}
    (begins : (written parameters rest ++ '\x60' :: tail).head? = some '\x7b') :
    rest.head? = some '\x7b' ∧ ¬AtPlaceholder (IsParameter parameters) rest := by
  by_cases at' : AtPlaceholder (IsParameter parameters) rest
  · obtain ⟨name, after, rfl, placeholder, named⟩ := at'
    obtain ⟨pair, listed, same⟩ := List.mem_map.1 named
    obtain rfl : name = pair.1.toList := by rw [same, String.toList_ofList]
    rw [written_parameter parameters (lookup_reverse distinct listed) placeholder] at begins
    cases begins
  · cases rest with
    | nil => cases begins
    | cons d rest =>
      rw [written_cons parameters at', templateChar] at begins
      split at begins
      · cases begins
      · exact ⟨begins, at'⟩

/-- A character of text is read back in front of the others, unless it is a dollar sign before a
placeholder without a parameter. -/
theorem read_cons_iff {items : List TemplateItem}
    (unknown : ¬AtPlaceholder (IsParameter parameters) (c :: rest)) (noReturn : c ≠ '\r')
    (others : readPieces templatePiece? '\x60' (written parameters rest ++ '\x60' :: tail) =
        some (items, tail) ↔ ¬FollowsDollar (¬IsParameter parameters ·) rest) :
    readPieces templatePiece? '\x60' (written parameters (c :: rest) ++ '\x60' :: tail) =
        some (textItems [c] ++ items, tail) ↔
      ¬FollowsDollar (¬IsParameter parameters ·) (c :: rest) := by
  rw [written_cons parameters unknown, List.append_assoc]
  by_cases bad : c = '$' ∧ AtPlaceholder (¬IsParameter parameters ·) rest
  · obtain ⟨rfl, at'⟩ := bad
    refine iff_of_false ?_ fun apart => apart (.here at')
    obtain ⟨name, after, rfl, placeholder, missing⟩ := id at'
    have known : ¬AtPlaceholder (IsParameter parameters) ('\x7b' :: (name ++ '\x7d' :: after)) := by
      rintro ⟨name', after', same, placeholder', named⟩
      have found := placeholder?_eq_some_iff.2 ⟨(List.cons.inj same).2, placeholder'⟩
      rw [placeholder?_eq_some_iff.2 ⟨rfl, placeholder⟩] at found
      cases found
      exact missing named
    have closed : opensText (pieces ('\x7b' :: (name ++ '\x7d' :: after))) = false := by
      rw [pieces_placeholder placeholder]
      rfl
    rw [closed, written_cons parameters known]
    exact readPieces_dollar_brace
  · rw [followsDollar_cons_iff bad, ← others, readPieces_templateChar noReturn,
      Option.map_eq_some_iff]
    · simp
    · rintro rfl closed begins
      obtain ⟨brace, unknown⟩ := head?_written distinct begins
      rw [Bool.eq_false_iff, Ne, opensText_pieces_iff, not_and_not_right] at closed
      obtain ⟨name, after, same, placeholder, -⟩ := closed brace
      exact bad ⟨rfl, name, after, same, placeholder, fun named =>
        unknown ⟨name, after, same, placeholder, named⟩⟩

/-- Whether what is written for text and the segments behind it is read as their split, exactly if
no dollar sign stands before a placeholder without a parameter. -/
def ReadsSplit (parameters : List (String × String)) (tail head : List Char)
    (segments : List Segment) : Prop :=
  readPieces templatePiece? '\x60' (written parameters (joined head segments) ++ '\x60' :: tail) =
      some (splitItems head segments, tail) ↔
    ¬FollowsDollar (¬IsParameter parameters ·) (joined head segments)

/-- Text in front of segments is read if they are. -/
theorem ReadsSplit.prepend {head : List Char} {segments : List Segment}
    (segments_read : ReadsSplit parameters tail [] segments)
    (head_free : ¬Holds (IsParameter parameters) head) (noReturn : '\r' ∉ head) :
    ReadsSplit parameters tail head segments := by
  induction head with
  | nil => exact segments_read
  | cons c head ih =>
    have read := ih (fun inside => head_free (.there c inside))
      fun mem => noReturn (List.mem_cons_of_mem c mem)
    have step := read_cons_iff distinct (not_atPlaceholder_of_free head_free)
      (fun same => noReturn (same ▸ List.mem_cons_self)) read
    rw [ReadsSplit, splitItems, textItems_cons, List.append_assoc]
    exact step

/-- A segment is read in front of others. -/
theorem ReadsSplit.cons {s : Segment} {segments : List Segment}
    (others : ReadsSplit parameters tail s.text segments)
    (placeholder : IsPlaceholder s.name.toList) (named : (s.name, s.identifier) ∈ parameters)
    (letters : ∀ c ∈ s.identifier.toList, Name.isIdentifierRest c = true) :
    ReadsSplit parameters tail [] (s :: segments) := by
  have whole : joined [] (s :: segments) =
      '\x7b' :: (s.name.toList ++ '\x7d' :: joined s.text segments) := by simp [joined]
  rw [ReadsSplit] at others
  rw [ReadsSplit, whole, followsDollar_placeholder_iff placeholder, ← others,
    written_parameter parameters (lookup_reverse distinct named) placeholder, List.cons_append,
    List.cons_append, List.append_assoc, List.cons_append,
    readPieces_substitution (encoding_ne_nil _) (isPlainCode_encoding letters),
    Option.map_eq_some_iff]
  simp [splitItems, textItems, utf16]

/-- What is written for a split path is read as its split, unless a dollar sign stands before a
placeholder without a parameter. -/
theorem readsSplit_of_isSplit
    (identifiers : ∀ p ∈ parameters, ∀ c ∈ p.2.toList, Name.isIdentifierRest c = true)
    {cs head : List Char} {segments : List Segment} (split : IsSplit parameters cs head segments)
    (noReturn : '\r' ∉ cs) (tail : List Char) : ReadsSplit parameters tail head segments := by
  induction segments generalizing cs head with
  | nil =>
    have none : ReadsSplit parameters tail [] [] := by
      have end' : written parameters (joined [] []) = [] := rfl
      rw [ReadsSplit, end', List.nil_append, readPieces_close]
      exact iff_of_true rfl not_followsDollar_nil
    rw [split.whole, joined, List.mem_append, not_or] at noReturn
    exact none.prepend distinct split.head_free noReturn.1
  | cons s segments ih =>
    obtain ⟨⟨placeholder, listed⟩, named⟩ := List.forall_mem_cons.1 split.named
    obtain ⟨free, text_free⟩ := List.forall_mem_cons.1 split.text_free
    have whole : cs = head ++ '\x7b' :: (s.name.toList ++ '\x7d' :: joined s.text segments) := by
      rw [split.whole]
      simp [joined]
    simp only [whole, List.mem_append, List.mem_cons, not_or] at noReturn
    have others := ih ⟨rfl, named, free, text_free⟩ noReturn.2.2.2.2
    exact (others.cons distinct placeholder listed (identifiers _ listed)).prepend distinct
      split.head_free noReturn.1

/-- **The template literal of a path** has exactly the text and the substitutions of the path split
at the placeholders of its parameters, unless a dollar sign stands right before a placeholder
without a parameter. -/
theorem pathTemplate_read
    (identifiers : ∀ p ∈ parameters, ∀ c ∈ p.2.toList, Name.isIdentifierRest c = true)
    {path : String} (noReturn : '\r' ∉ path.toList) :
    (∃ head segments, IsSplit parameters path.toList head segments) ∧
    ∀ head segments, IsSplit parameters path.toList head segments → ∀ rest,
      (readTemplate ((pathTemplate path parameters).toList ++ rest) =
          some (splitItems head segments, rest) ↔
        ¬FollowsDollar (¬IsParameter parameters ·) path.toList) := by
  refine ⟨exists_isSplit parameters path.toList, fun head segments split rest => ?_⟩
  have read := readsSplit_of_isSplit distinct identifiers split noReturn rest
  rw [ReadsSplit, ← split.whole] at read
  rw [toList_pathTemplate, List.cons_append, List.append_assoc, List.singleton_append, readTemplate,
    readLiteral_quote, read]

end Back

/-- A path with a parameter, a brace that is text and a placeholder that is none of a parameter. -/
theorem pathTemplate_read_of_pet :
    let parameters := [("pet-id", "petId")]
    let path := "/$\x7b\x60/$\x7bpet-id\x7d/\x7bx\x7d"
    ∃ head segments, IsSplit parameters path.toList head segments ∧
      readTemplate (pathTemplate path parameters).toList = some (splitItems head segments, []) := by
  intro parameters path
  have distinct : (parameters.map (·.1)).Nodup := by decide
  have identifiers : ∀ p ∈ parameters, ∀ c ∈ p.2.toList, Name.isIdentifierRest c = true :=
    List.forall_mem_singleton.2 (List.all_eq_true.1 (by decide))
  have noReturn : '\r' ∉ path.toList := by decide
  obtain ⟨⟨head, segments, split⟩, read⟩ := pathTemplate_read distinct identifiers noReturn
  have back := (read head segments split []).2 (by decide)
  rw [List.append_nil] at back
  exact ⟨head, segments, split, back⟩

/-- A placeholder without a parameter is substituted behind a dollar sign. -/
theorem placeholder_is_substituted :
    let path := "$\x7bid\x7d"
    IsSplit [] path.toList path.toList [] ∧
      readTemplate (pathTemplate path []).toList = some ([.substitution ['i', 'd']], []) := by
  intro path
  have free : ¬Holds (IsParameter []) path.toList := by
    intro inside
    obtain ⟨name, named⟩ := inside.exists_name
    exact List.not_mem_nil named
  have literal : (pathTemplate path []).toList = '\x60' :: '$' :: '\x7b' :: (['i', 'd'] ++
      '\x7d' :: ['\x60']) := by decide +kernel
  refine ⟨⟨by simp [joined], List.forall_mem_nil _, free, List.forall_mem_nil _⟩, ?_⟩
  rw [literal, readTemplate, readLiteral_quote,
    readPieces_substitution (by decide) (List.all_eq_true.1 (by decide)), readPieces_close]
  rfl

end ClientGen.Source
