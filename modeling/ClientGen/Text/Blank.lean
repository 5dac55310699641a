/-!
# Blank space, lines and pieces of text

Trimming, splitting and joining over lists of characters, with the forms on `String` that the rest
of the library calls. `join_split` says that splitting at a character loses nothing.
-/

namespace ClientGen.Text

/-- Characters that leave no ink: spaces of every width, tabs and all line and record
separators. -/
def isBlank (c : Char) : Bool :=
  let n := c.toNat
  (9 ≤ n && n ≤ 13) || (28 ≤ n && n ≤ 32) || n == 0x85 || n == 0xA0 || n == 0x1680
    || (0x2000 ≤ n && n ≤ 0x200A) || n == 0x2028 || n == 0x2029 || n == 0x202F || n == 0x205F
    || n == 0x3000

/-! ## Lists of characters -/

/-- Drops the longest run of characters satisfying `p` from the end. -/
def dropEndWhile (p : Char → Bool) : List Char → List Char
  | [] => []
  | c :: rest =>
    match dropEndWhile p rest with
    | [] => if p c then [] else [c]
    | kept => c :: kept

/-- Drops characters satisfying `p` from both ends. -/
def stripWhile (p : Char → Bool) (cs : List Char) : List Char :=
  dropEndWhile p (cs.dropWhile p)

/-- Characters without the line end behind them, if there is one. -/
def dropLineEnd : List Char → List Char
  | [] => []
  | ['\n'] => []
  | c :: rest => c :: dropLineEnd rest

/-- The pieces between the characters satisfying `p`; there is always at least one. -/
def splitWhere (p : Char → Bool) : List Char → List (List Char)
  | [] => [[]]
  | c :: rest =>
    if p c then [] :: splitWhere p rest
    else
      match splitWhere p rest with
      | [] => [[c]]
      | piece :: pieces => (c :: piece) :: pieces

/-- Pieces with `sep` written between neighbours. -/
def joinChars (sep : List Char) : List (List Char) → List Char
  | [] => []
  | [piece] => piece
  | piece :: pieces => piece ++ sep ++ joinChars sep pieces

theorem splitWhere_ne_nil (p : Char → Bool) (cs : List Char) : splitWhere p cs ≠ [] := by
  cases cs with
  | nil => simp [splitWhere]
  | cons c rest =>
    unfold splitWhere
    split
    · simp
    · split <;> simp

theorem joinChars_cons_of_ne_nil (sep piece : List Char) {pieces : List (List Char)}
    (h : pieces ≠ []) : joinChars sep (piece :: pieces) = piece ++ sep ++ joinChars sep pieces := by
  cases pieces with
  | nil => exact absurd rfl h
  | cons _ _ => rfl

theorem joinChars_cons_char (sep : List Char) (c : Char) (piece : List Char)
    (pieces : List (List Char)) :
    joinChars sep ((c :: piece) :: pieces) = c :: joinChars sep (piece :: pieces) := by
  cases pieces <;> simp [joinChars]

/-- Splitting at a character and joining with it gives the text back. -/
theorem join_split (c : Char) (cs : List Char) :
    joinChars [c] (splitWhere (· == c) cs) = cs := by
  induction cs with
  | nil => rfl
  | cons d rest ih =>
    unfold splitWhere
    split
    · next h =>
      rw [joinChars_cons_of_ne_nil _ _ (splitWhere_ne_nil _ _), ih]
      simp_all
    · split
      · next h => exact absurd h (splitWhere_ne_nil _ _)
      · next h => rw [joinChars_cons_char, ← h, ih]

/-- Whether `pre` begins `cs`, and what follows it. -/
def dropPrefix? : (pre cs : List Char) → Option (List Char)
  | [], cs => some cs
  | _ :: _, [] => none
  | p :: pre, c :: cs => if p == c then dropPrefix? pre cs else none

theorem dropPrefix?_append (pre cs : List Char) : dropPrefix? pre (pre ++ cs) = some cs := by
  induction pre with
  | nil => rfl
  | cons p pre ih => simp [dropPrefix?, ih]

theorem eq_append_of_dropPrefix? {pre cs rest : List Char} (h : dropPrefix? pre cs = some rest) :
    cs = pre ++ rest := by
  induction pre generalizing cs with
  | nil => simp_all [dropPrefix?]
  | cons p pre ih =>
    cases cs with
    | nil => simp [dropPrefix?] at h
    | cons c cs =>
      rw [dropPrefix?] at h
      split at h
      · next heq => rw [ih h]; simp_all
      · simp at h

/-- Replaces each character by text of its own. -/
def escapeWith (f : Char → List Char) (s : String) : String :=
  String.ofList (s.toList.flatMap f)

/-! ## Strings -/

/-- Text without blank space at its ends. -/
def trim (s : String) : String := String.ofList (stripWhile isBlank s.toList)

/-- Text without blank space at its beginning. -/
def trimStart (s : String) : String := String.ofList (s.toList.dropWhile isBlank)

/-- Text without blank space at its end. -/
def trimEnd (s : String) : String := String.ofList (dropEndWhile isBlank s.toList)

/-- Whether text holds nothing but blank space. -/
def allBlank (s : String) : Bool := s.toList.all isBlank

/-- The pieces of `s` between occurrences of `c`. -/
def splitAt (c : Char) (s : String) : List String :=
  (splitWhere (· == c) s.toList).map String.ofList

/-- The lines of `s`: the pieces between line feeds. -/
def lines (s : String) : List String := splitAt '\n' s

/-- Lines with a line feed between neighbours. -/
def unlines (ls : List String) : String := "\n".intercalate ls

/-- What follows `pre` in `s`, if `s` begins with it. -/
def afterPrefix? (pre s : String) : Option String :=
  (dropPrefix? pre.toList s.toList).map String.ofList

/-- Whether `s` begins with `pre`. -/
def startsWith (pre s : String) : Bool := (dropPrefix? pre.toList s.toList).isSome

/-- Whether `s` ends with `post`. -/
def endsWith (post s : String) : Bool :=
  (dropPrefix? post.toList.reverse s.toList.reverse).isSome

/-- A run of `n` spaces. -/
def spaces (n : Nat) : String := String.ofList (List.replicate n ' ')

/-- Text without the line feeds at its end. -/
def dropFinalBreaks (s : String) : String := String.ofList (dropEndWhile (· == '\n') s.toList)

end ClientGen.Text
