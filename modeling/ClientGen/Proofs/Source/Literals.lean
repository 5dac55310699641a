import ClientGen.Proofs.Name.Key
import ClientGen.Source.Literal

/-!
# Literals that are read back

What stands between the quotes of a literal is read piece by piece, up to the character that closes
it (`readPieces`). A piece is a character that stands for itself, or a backslash with what is behind
it. TypeScript and Rust differ in their pieces (`scriptPiece?`, `rustPiece?`): in TypeScript they
stand for UTF-16 units, in Rust for characters.

**What the literals of a text stand for** (`readString_quoted`): each is one token, and its value is
the text, unless a carriage return stands in the text. It is written as it is, where a line feed is
escaped, and neither language reads it (`return_not_read`).
-/

namespace ClientGen.Source

open Json (hexValue?)
open Name (units)

/-! ### Pieces of a literal -/

section Pieces

variable {α : Type} {piece? : List Char → Option (List α × List Char)} {close : Char}

/-- What the pieces up to a closing character stand for, and what follows it. Every piece takes at
least one character. -/
def readPieces (piece? : List Char → Option (List α × List Char)) (close : Char) :
    List Char → Option (List α × List Char)
  | [] => none
  | c :: rest =>
    if c = close then some ([], rest)
    else
      match piece? (c :: rest) with
      | none => none
      | some (value, after) =>
        if _shorter : after.length ≤ rest.length then
          (readPieces piece? close after).map fun r => (value ++ r.1, r.2)
        else none
termination_by cs => cs.length

/-- What the literal at the beginning of characters stands for, and what follows it. -/
def readLiteral (piece? : List Char → Option (List α × List Char)) (quote : Char) :
    List Char → Option (List α × List Char)
  | [] => none
  | c :: rest => if c = quote then readPieces piece? quote rest else none

theorem readPieces_close (rest : List Char) :
    readPieces piece? close (close :: rest) = some ([], rest) := by
  rw [readPieces, if_pos rfl]

theorem readPieces_of_piece {c : Char} {rest after : List Char} {value : List α}
    (goesOn : c ≠ close) (piece : piece? (c :: rest) = some (value, after))
    (shorter : after.length ≤ rest.length) :
    readPieces piece? close (c :: rest) =
      (readPieces piece? close after).map fun r => (value ++ r.1, r.2) := by
  rw [readPieces, if_neg goesOn, piece]
  exact dif_pos shorter

theorem readPieces_of_none {c : Char} {rest : List Char} (goesOn : c ≠ close)
    (noPiece : piece? (c :: rest) = none) : readPieces piece? close (c :: rest) = none := by
  rw [readPieces, if_neg goesOn, noPiece]

theorem readLiteral_quote (quote : Char) (rest : List Char) :
    readLiteral piece? quote (quote :: rest) = readPieces piece? quote rest :=
  if_pos rfl

/-- Whether characters are read as one piece with a value, whatever follows them. -/
def IsPiece (piece? : List Char → Option (List α × List Char)) (close : Char) (cs : List Char)
    (value : List α) : Prop :=
  ∃ c rest, cs = c :: rest ∧ c ≠ close ∧
    ∀ after, piece? (c :: (rest ++ after)) = some (value, after)

theorem readPieces_append {cs : List Char} {value : List α}
    (piece : IsPiece piece? close cs value) (after : List Char) :
    readPieces piece? close (cs ++ after) =
      (readPieces piece? close after).map fun r => (value ++ r.1, r.2) := by
  obtain ⟨c, rest, rfl, goesOn, read⟩ := piece
  exact readPieces_of_piece goesOn (read after) (by simp)

/-- Pieces are read one after the other. -/
theorem readPieces_flatMap {β : Type} {write : β → List Char} {value : β → List α} {bs : List β}
    (pieces : ∀ b ∈ bs, IsPiece piece? close (write b) (value b)) (after : List Char) :
    readPieces piece? close (bs.flatMap write ++ after) =
      (readPieces piece? close after).map fun r => (bs.flatMap value ++ r.1, r.2) := by
  induction bs with
  | nil => simp
  | cons b bs ih =>
    obtain ⟨first, others⟩ := List.forall_mem_cons.1 pieces
    rw [List.flatMap_cons, List.append_assoc, readPieces_append first, ih others, Option.map_map]
    simp [Function.comp_def]

end Pieces

/-! ### Escapes -/

/-- The number that hexadecimal digits stand for; there is at least one. -/
def hexNumber? (digits : List Char) : Option Nat :=
  if digits.isEmpty then none
  else digits.foldlM (fun n c => (hexValue? c).map (16 * n + ·)) 0

/-- Characters up to a closing brace, and what follows it. -/
def upToBrace? (cs : List Char) : Option (List Char × List Char) :=
  match cs.dropWhile (· != '\x7d') with
  | [] => none
  | _ :: rest => some (cs.takeWhile (· != '\x7d'), rest)

/-- Whether a character ends a line of TypeScript. -/
def endsScriptLine (c : Char) : Bool :=
  c == '\n' || c == '\r' || c == '\u2028' || c == '\u2029'

/-- The control character that a letter stands for behind a backslash. -/
def controlOf? : Char → Option Nat
  | 'b' => some 8
  | 't' => some 9
  | 'n' => some 10
  | 'v' => some 11
  | 'f' => some 12
  | 'r' => some 13
  | _ => none

/-- What a backslash stands for in TypeScript, in UTF-16 units, and what follows. A line may go on
behind it; of the digits there is only the zero, with no other behind it; and a character without a
meaning of its own stands for itself. -/
def scriptEscape? : List Char → Option (List Nat × List Char)
  | 'x' :: a :: b :: rest => (hexNumber? [a, b]).map fun n => ([n], rest)
  | 'u' :: '\x7b' :: rest => do
    let (digits, after) ← upToBrace? rest
    let n ← hexNumber? digits
    if n < 0x110000 then some (units n, after) else none
  | 'u' :: a :: b :: c :: d :: rest => (hexNumber? [a, b, c, d]).map fun n => ([n], rest)
  | '\r' :: '\n' :: rest => some ([], rest)
  | c :: rest =>
    if c = 'x' ∨ c = 'u' then none
    else if c = '0' ∧ rest.head?.any Char.isDigit = false then some ([0], rest)
    else if c.isDigit then none
    else if endsScriptLine c then some ([], rest)
    else some (((controlOf? c).map fun n => [n]).getD (units c.toNat), rest)
  | [] => none

/-- A piece of a string literal of TypeScript. No line ends in it. -/
def scriptPiece? : List Char → Option (List Nat × List Char)
  | '\\' :: rest => scriptEscape? rest
  | c :: rest => if c = '\n' ∨ c = '\r' then none else some (units c.toNat, rest)
  | [] => none

/-- The character that another stands for behind a backslash in Rust. -/
def rustEscaped? : Char → Option Char
  | 'n' => some '\n'
  | 'r' => some '\r'
  | 't' => some '\t'
  | '0' => some (Char.ofNat 0)
  | '\\' => some '\\'
  | '\'' => some '\''
  | '"' => some '"'
  | _ => none

/-- What a backslash stands for in Rust, and what follows. At the end of a line it stands for
nothing, together with the blank space behind it. -/
def rustEscape? : List Char → Option (List Char × List Char)
  | 'x' :: a :: b :: rest => do
    let n ← hexNumber? [a, b]
    if n < 0x80 then some ([Char.ofNat n], rest) else none
  | 'u' :: '\x7b' :: rest => do
    let (digits, after) ← upToBrace? rest
    let n ← hexNumber? (digits.filter (· != '_'))
    if digits.head? ≠ some '_' ∧ (digits.filter (· != '_')).length ≤ 6 ∧ n.isValidChar then
      some ([Char.ofNat n], after)
    else none
  | '\n' :: rest => some ([], rest.dropWhile [' ', '\t', '\n', '\r'].contains)
  | c :: rest => (rustEscaped? c).map fun d => ([d], rest)
  | [] => none

/-- A piece of a string literal of Rust. No carriage return stands in it. -/
def rustPiece? : List Char → Option (List Char × List Char)
  | '\\' :: rest => rustEscape? rest
  | c :: rest => if c = '\r' then none else some ([c], rest)
  | [] => none

/-! ### String literals -/

/-- The UTF-16 units of characters. -/
def utf16 (cs : List Char) : List Nat := cs.flatMap fun c => units c.toNat

/-- A carriage return in front of a line feed does not count in Rust. -/
def dropReturns : List Char → List Char
  | '\r' :: '\n' :: rest => '\n' :: dropReturns rest
  | c :: rest => c :: dropReturns rest
  | [] => []

/-- The value of the string literal of TypeScript in single quotes at the beginning of characters,
in UTF-16 units, and what follows it. -/
def readScriptString : List Char → Option (List Nat × List Char) := readLiteral scriptPiece? '\''

/-- The value of the string literal of Rust at the beginning of characters, and what follows it. -/
def readRustString (cs : List Char) : Option (List Char × List Char) :=
  readLiteral rustPiece? '"' (dropReturns cs)

theorem dropReturns_cons {c : Char} {rest : List Char} (apart : c ≠ '\r' ∨ rest.head? ≠ some '\n') :
    dropReturns (c :: rest) = c :: dropReturns rest := by
  rw [dropReturns]
  rintro after rfl rfl
  simp at apart

theorem dropReturns_append {cs : List Char} (noBreak : '\n' ∉ cs) {rest : List Char}
    (noBreak' : rest.head? ≠ some '\n') :
    dropReturns (cs ++ rest) = cs ++ dropReturns rest := by
  induction cs with
  | nil => rfl
  | cons c cs ih =>
    have others : '\n' ∉ cs := fun mem => noBreak (List.mem_cons_of_mem c mem)
    have next : (cs ++ rest).head? ≠ some '\n' := by
      cases cs with
      | nil => exact noBreak'
      | cons d cs =>
        intro begins
        exact others (Option.some.inj begins ▸ List.mem_cons_self)
    rw [List.cons_append, dropReturns_cons (.inr next), ih others]
    rfl

theorem toList_quotedBy (q : Char) (s : String) :
    (quotedBy q s).toList = q :: (s.toList.flatMap (quotedChar q) ++ [q]) :=
  String.toList_ofList

/-- What stands between the quotes of a literal has no line feed in it. -/
theorem break_not_mem_quoted {q : Char} (quote : q ≠ '\n') (cs : List Char) :
    '\n' ∉ cs.flatMap (quotedChar q) := by
  rw [List.mem_flatMap]
  rintro ⟨c, -, mem⟩
  unfold quotedChar at mem
  split at mem
  · revert mem
    decide
  split at mem
  · simp [quote.symm] at mem
  split at mem
  · revert mem
    decide
  · next noBreak => exact noBreak (List.mem_singleton.1 mem).symm

section Quoted

variable {c : Char} (noReturn : c ≠ '\r')

include noReturn

theorem isPiece_script : IsPiece scriptPiece? '\'' (quotedChar '\'' c) (units c.toNat) := by
  unfold quotedChar
  split
  · next same => exact ⟨'\\', ['\\'], rfl, by decide, fun after => by subst same; rfl⟩
  split
  · next same => exact ⟨'\\', ['\''], rfl, by decide, fun after => by subst same; rfl⟩
  split
  · next same => exact ⟨'\\', ['n'], rfl, by decide, fun after => by subst same; rfl⟩
  · next noEscape noQuote noBreak =>
    refine ⟨c, [], rfl, noQuote, fun after => ?_⟩
    rw [List.nil_append, scriptPiece?, if_neg (by simp [noBreak, noReturn])]
    rintro rfl
    exact noEscape rfl

theorem isPiece_rust : IsPiece rustPiece? '"' (quotedChar '"' c) [c] := by
  unfold quotedChar
  split
  · next same => exact ⟨'\\', ['\\'], rfl, by decide, fun after => by subst same; rfl⟩
  split
  · next same => exact ⟨'\\', ['"'], rfl, by decide, fun after => by subst same; rfl⟩
  split
  · next same => exact ⟨'\\', ['n'], rfl, by decide, fun after => by subst same; rfl⟩
  · next noEscape noQuote noBreak =>
    refine ⟨c, [], rfl, noQuote, fun after => ?_⟩
    rw [List.nil_append, rustPiece?, if_neg noReturn]
    rintro rfl
    exact noEscape rfl

end Quoted

/-- A literal between quotes is read up to its end if each of its characters is a piece, and not at
all if a carriage return stands in it that is none. -/
theorem readLiteral_quotedBy {α : Type} {piece? : List Char → Option (List α × List Char)}
    {q : Char} {value : Char → List α} (quote : '\r' ≠ '\\' ∧ '\r' ≠ q)
    (pieces : ∀ c, c ≠ '\r' → IsPiece piece? q (quotedChar q c) (value c))
    (noPiece : ∀ rest, piece? ('\r' :: rest) = none) (s : String) (rest : List Char) :
    readLiteral piece? q ((quotedBy q s).toList ++ rest) =
      if '\r' ∈ s.toList then none else some (s.toList.flatMap value, rest) := by
  rw [toList_quotedBy, List.cons_append, readLiteral_quote, List.append_assoc]
  split
  · next mem =>
    obtain ⟨before, after, split, first⟩ := List.eq_append_cons_of_mem mem
    have each : ∀ c ∈ before, IsPiece piece? q (quotedChar q c) (value c) :=
      fun c mem => pieces c fun same => first (same ▸ mem)
    have kept : quotedChar q '\r' = ['\r'] := by simp [quotedChar, quote.1, quote.2]
    rw [split, List.flatMap_append, List.flatMap_cons, kept, List.append_assoc,
      readPieces_flatMap each]
    exact congrArg _ (readPieces_of_none quote.2 (noPiece _))
  · next noReturn =>
    rw [readPieces_flatMap fun c mem => pieces c fun same => noReturn (same ▸ mem),
      List.singleton_append, readPieces_close]
    simp

theorem readScriptString_singleQuoted (s : String) (rest : List Char) :
    readScriptString ((singleQuoted s).toList ++ rest) =
      if '\r' ∈ s.toList then none else some (utf16 s.toList, rest) :=
  readLiteral_quotedBy (by decide) (fun _ noReturn => isPiece_script noReturn) (fun _ => rfl) s rest

theorem readRustString_doubleQuoted (s : String) (rest : List Char) :
    readRustString ((doubleQuoted s).toList ++ rest) =
      if '\r' ∈ s.toList then none else some (s.toList, dropReturns rest) := by
  have kept : dropReturns ((doubleQuoted s).toList ++ rest) =
      (doubleQuoted s).toList ++ dropReturns rest := by
    have noBreak := break_not_mem_quoted (q := '"') (by decide) s.toList
    rw [doubleQuoted, toList_quotedBy, List.cons_append, List.append_assoc,
      dropReturns_cons (.inl (by decide)), dropReturns_append noBreak (by simp),
      List.singleton_append, dropReturns_cons (.inl (by decide))]
    simp
  have value : s.toList.flatMap (fun c => [c]) = s.toList := List.flatMap_singleton' _
  rw [readRustString, kept, doubleQuoted,
    readLiteral_quotedBy (by decide) (fun _ noReturn => isPiece_rust noReturn) (fun _ => rfl),
    value]

/-- **What the literals of a text stand for.** Without a carriage return, each of the two is one
token, whatever follows it, and its value is the text; with one, neither is a token. -/
theorem readString_quoted (s : String) (rest : List Char) :
    readScriptString ((singleQuoted s).toList ++ rest) =
        (if '\r' ∈ s.toList then none else some (utf16 s.toList, rest)) ∧
      readRustString ((doubleQuoted s).toList ++ rest) =
        (if '\r' ∈ s.toList then none else some (s.toList, dropReturns rest)) :=
  ⟨readScriptString_singleQuoted s rest, readRustString_doubleQuoted s rest⟩

/-- The literals of a carriage return are not read. -/
theorem return_not_read :
    readScriptString (singleQuoted "\r").toList = none ∧
      readRustString (doubleQuoted "\r").toList = none := by
  have script := readScriptString_singleQuoted "\r" []
  have rust := readRustString_doubleQuoted "\r" []
  rw [List.append_nil] at script rust
  exact ⟨script, rust⟩

end ClientGen.Source
