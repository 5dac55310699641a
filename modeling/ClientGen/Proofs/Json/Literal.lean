import Mathlib.Data.List.Chain
import ClientGen.Json.Reader
import ClientGen.Proofs.Name.Key
import ClientGen.Proofs.Text.Length

/-!
# JSON literals that are read back

The reader takes a literal escape by escape (`readString_escapeCode`). Every code point comes back
as itself, with one exception: the first half of a surrogate pair and the second half behind it come
back as the one code point that they make (`joinPairs`).

**What the literal of a text is read as** (`read_quote`): the text with its pairs of halves joined.
That text has the same UTF-16 units (`unitName_joined`), and it is the text itself if no first half
stands directly before a second one (`joined_eq_self`).
-/

namespace ClientGen.Json

open Name (hexUnit?_hexDigits lt_of_mem_codes units unitName)

/-! ### Pairs of halves -/

/-- Code points where each first half of a surrogate pair is joined with the second half directly
behind it. -/
def joinPairs : List Nat → List Nat
  | m :: n :: rest =>
    if Text.isHighHalf m && Text.isLowHalf n then Text.ofPair m n :: joinPairs rest
    else m :: joinPairs (n :: rest)
  | ns => ns

/-- A text with its pairs of halves joined. -/
def joined (s : String) : String :=
  String.ofList (Text.ofCodes (joinPairs (Text.codes s.toList)))

/-- Whether no first half of a surrogate pair stands directly before a second one. -/
def Unpaired (ns : List Nat) : Prop :=
  ns.IsChain fun m n => ¬(Text.isHighHalf m = true ∧ Text.isLowHalf n = true)

instance (ns : List Nat) : Decidable (Unpaired ns) :=
  inferInstanceAs (Decidable (ns.IsChain fun m n =>
    ¬(Text.isHighHalf m = true ∧ Text.isLowHalf n = true)))

theorem joinPairs_eq_self {ns : List Nat} (unpaired : Unpaired ns) : joinPairs ns = ns := by
  fun_induction joinPairs ns with
  | case1 m n rest pair ih =>
    rw [Bool.and_eq_true] at pair
    exact absurd pair (List.isChain_cons_cons.1 unpaired).1
  | case2 m n rest noPair ih => rw [ih (List.isChain_cons_cons.1 unpaired).2]
  | case3 => rfl

variable {m n : Nat}

theorem isHighHalf_iff : Text.isHighHalf n = true ↔ 0xd800 ≤ n ∧ n < 0xdc00 := by
  simp [Text.isHighHalf]

theorem isLowHalf_iff : Text.isLowHalf n = true ↔ 0xdc00 ≤ n ∧ n < 0xe000 := by
  simp [Text.isLowHalf]

theorem units_ofPair (high : Text.isHighHalf m = true) (low : Text.isLowHalf n = true) :
    units (Text.ofPair m n) = [m, n] := by
  rw [isHighHalf_iff] at high
  rw [isLowHalf_iff] at low
  have beyond : ¬Text.ofPair m n < 0x10000 := by unfold Text.ofPair; omega
  have first : 0xd800 + (Text.ofPair m n - 0x10000) / 0x400 = m := by unfold Text.ofPair; omega
  have second : 0xdc00 + (Text.ofPair m n - 0x10000) % 0x400 = n := by unfold Text.ofPair; omega
  rw [units, if_neg beyond, first, second]

theorem ofPair_lt (high : Text.isHighHalf m = true) (low : Text.isLowHalf n = true) :
    Text.ofPair m n < 0x110000 := by
  rw [isHighHalf_iff] at high
  rw [isLowHalf_iff] at low
  unfold Text.ofPair
  omega

/-- Code points and those with joined pairs have the same units. -/
theorem flatMap_units_joinPairs (ns : List Nat) :
    (joinPairs ns).flatMap units = ns.flatMap units := by
  fun_induction joinPairs ns with
  | case1 m n rest pair ih =>
    obtain ⟨high, low⟩ := Bool.and_eq_true_iff.1 pair
    have first : units m = [m] := if_pos (by rw [isHighHalf_iff] at high; omega)
    have second : units n = [n] := if_pos (by rw [isLowHalf_iff] at low; omega)
    rw [List.flatMap_cons, List.flatMap_cons, List.flatMap_cons, units_ofPair high low, ih, first,
      second]
    rfl
  | case2 m n rest noPair ih => rw [List.flatMap_cons, ih, ← List.flatMap_cons]
  | case3 => rfl

theorem lt_of_mem_joinPairs {ns : List Nat} (small : ∀ n ∈ ns, n < 0x110000) :
    ∀ n ∈ joinPairs ns, n < 0x110000 := by
  fun_induction joinPairs ns with
  | case1 m n rest pair ih =>
    obtain ⟨high, low⟩ := Bool.and_eq_true_iff.1 pair
    have others := (List.forall_mem_cons.1 (List.forall_mem_cons.1 small).2).2
    exact List.forall_mem_cons.2 ⟨ofPair_lt high low, ih others⟩
  | case2 m n rest noPair ih =>
    obtain ⟨first, others⟩ := List.forall_mem_cons.1 small
    exact List.forall_mem_cons.2 ⟨first, ih others⟩
  | case3 => exact small

theorem codes_joined (s : String) :
    Text.codes (joined s).toList = joinPairs (Text.codes s.toList) := by
  rw [joined, String.toList_ofList, Text.codes_ofCodes (lt_of_mem_joinPairs lt_of_mem_codes)]

/-- Joining pairs leaves the units of a text as they are. -/
theorem unitName_joined (s : String) : unitName (joined s) = unitName s := by
  rw [unitName, codes_joined, flatMap_units_joinPairs, unitName]

/-- A text in which no pair is to be joined stays as it is. -/
theorem joined_eq_self {s : String} (kept : Text.Kept s.toList)
    (unpaired : Unpaired (Text.codes s.toList)) : joined s = s := by
  obtain ⟨ns, small, text⟩ := kept
  rw [joined, joinPairs_eq_self unpaired, text, Text.codes_ofCodes small, ← text,
    String.ofList_toList]

/-! ### Reading a literal -/

theorem charsOf_toNat {c : Char} (small : c.toNat < 0xd800) : Text.charsOf c.toNat = [c] := by
  have whole : Text.isHalf c.toNat = false := by
    rw [Text.isHalf, Bool.and_eq_false_iff, decide_eq_false_iff_not]
    exact .inl (by omega)
  have unreserved : Text.isReserved c = false := by
    have noHalf : Text.keepsHalf c = false := by
      rw [Text.keepsHalf, Nat.sub_eq_zero_of_le (by rw [Text.halfOffset]; omega)]
      rfl
    have noMark : (c == Text.mark) = false := by
      rw [beq_eq_false_iff_ne]
      rintro rfl
      exact absurd small (by decide)
    rw [Text.isReserved, noHalf, noMark]
    rfl
  simp [Text.charsOf, whole, Char.ofNat_toNat, unreserved]

theorem toNat_lt_of_simpleEscape {e c : Char} (h : simpleEscape? e = some c) : c.toNat < 127 := by
  unfold simpleEscape? at h
  split at h
  · next same =>
    rw [← Option.some.inj h]
    rcases same with rfl | rfl | rfl <;> decide
  iterate 5
    split at h
    · rw [← Option.some.inj h]
      decide
  cases h

theorem printable_of_escapeCode {c : Char} (plain : escapeCode n = [c]) : 32 ≤ n ∧ n < 127 := by
  unfold escapeCode at plain
  iterate 7
    split at plain
    · cases plain
  split at plain
  · next printable => exact printable
  · unfold unitEscapes at plain
    split at plain <;> cases plain

theorem escapeCode_of_half (half : 0xd800 ≤ n ∧ n < 0xe000) : escapeCode n = unitEscape n := by
  rw [Name.escapeCode_of_le (by omega), unitEscapes, if_pos (by omega)]

/-- A code point beyond the first plane is written as a pair of halves. -/
theorem exists_pair (beyond : 0x10000 ≤ n) (small : n < 0x110000) :
    ∃ high low, Text.isHighHalf high = true ∧ Text.isLowHalf low = true ∧
      Text.ofPair high low = n ∧ unitEscapes n = unitEscape high ++ unitEscape low := by
  refine ⟨0xd800 + (n - 0x10000) / 0x400, 0xdc00 + (n - 0x10000) % 0x400, ?_, ?_, ?_, ?_⟩
  · rw [isHighHalf_iff]
    omega
  · rw [isLowHalf_iff]
    omega
  · unfold Text.ofPair
    omega
  · rw [unitEscapes, if_neg (by omega)]

section Steps

variable {after : List Char}

/-- The second half of a pair is seen in the escape of a unit that something stands behind. -/
theorem lowSurrogate?_unitEscape (small : n < 0x10000) (goesOn : after ≠ []) (position : Nat) :
    lowSurrogate? (unitEscape n ++ after) position =
      .ok (if Text.isLowHalf n then some n else none) := by
  have read := hexUnit?_hexDigits small
  have goesOn' : after.isEmpty = false := List.isEmpty_eq_false_iff.2 goesOn
  simp only [hexDigits, List.nil_append, List.cons_append] at read
  simp [unitEscape, hexDigits, lowSurrogate?, read, goesOn']

/-- No second half is seen in what is written for another code point. -/
theorem lowSurrogate?_escapeCode (small : n < 0x110000) (noLow : Text.isLowHalf n = false)
    (goesOn : after ≠ []) (position : Nat) :
    lowSurrogate? (escapeCode n ++ after) position = .ok none := by
  rcases Name.escapeCode_cases n with
    ⟨e, c, simple, -, escaped⟩ | ⟨c, -, noEscape, -, plain⟩ | units
  · rw [escaped]
    have noUnit : e ≠ 'u' := by rintro rfl; cases simple
    simp [lowSurrogate?, noUnit]
  · rw [plain]
    simp [lowSurrogate?, noEscape]
  · rw [units]
    rcases Nat.lt_or_ge n 0x10000 with first | beyond
    · rw [unitEscapes, if_pos first, lowSurrogate?_unitEscape first goesOn, noLow]
      rfl
    · obtain ⟨high, low, isHigh, -, -, written⟩ := exists_pair beyond small
      rw [isHighHalf_iff] at isHigh
      have noLow' : Text.isLowHalf high = false := by
        rw [← Bool.not_eq_true, isLowHalf_iff]
        omega
      rw [written, List.append_assoc, lowSurrogate?_unitEscape (by omega) (by simp [unitEscape]),
        noLow']
      rfl

/-- A unit is read from its escape, if it is no first half that a second one stands behind. -/
theorem readUnitEscape_unit (small : n < 0x10000) (goesOn : after ≠ [])
    (alone : Text.isHighHalf n = true → ∀ p, lowSurrogate? after p = .ok none) (position : Nat) :
    readUnitEscape ⟨hexDigits 4 n ++ after, position⟩ = .ok (n, ⟨after, position + 4⟩) := by
  have read := hexUnit?_hexDigits small
  have goesOn' : after.isEmpty = false := List.isEmpty_eq_false_iff.2 goesOn
  simp only [hexDigits, List.nil_append, List.cons_append] at read
  by_cases high : Text.isHighHalf n = true
  · simp [readUnitEscape, hexDigits, read, goesOn', high, alone high, Cursor.skip]
    rfl
  · simp [readUnitEscape, hexDigits, read, goesOn', high, Cursor.skip]
    rfl

/-- A pair is read from the escapes of its halves. -/
theorem readUnitEscape_pair (high : Text.isHighHalf m = true) (low : Text.isLowHalf n = true)
    (goesOn : after ≠ []) (position : Nat) :
    readUnitEscape ⟨hexDigits 4 m ++ (unitEscape n ++ after), position⟩ =
      .ok (Text.ofPair m n, ⟨after, position + 10⟩) := by
  have smallM : m < 0x10000 := by rw [isHighHalf_iff] at high; omega
  have smallN : n < 0x10000 := by rw [isLowHalf_iff] at low; omega
  have read := hexUnit?_hexDigits smallM
  have second := lowSurrogate?_unitEscape smallN goesOn (position + 4)
  simp only [hexDigits, List.nil_append, List.cons_append] at read
  simp only [unitEscape, hexDigits, List.nil_append, List.cons_append, low, if_true] at second
  simp [readUnitEscape, hexDigits, unitEscape, read, high, second, Cursor.skip]
  rfl

section Read

variable (start fuel position : Nat) (done : List Char)

theorem readString_letter {e c : Char} (simple : simpleEscape? e = some c) :
    readString start (fuel + 1) ⟨'\\' :: e :: after, position⟩ done =
      readString start fuel ⟨after, position + 2⟩ (c :: done) := by
  have noUnit : e ≠ 'u' := by rintro rfl; cases simple
  rw [readString]
  simp [simple, Cursor.skip]

theorem readString_plain {c : Char} (printable : 32 ≤ c.toNat ∧ c.toNat < 127) (noQuote : c ≠ '"')
    (noEscape : c ≠ '\\') : readString start (fuel + 1) ⟨c :: after, position⟩ done =
      readString start fuel ⟨after, position + 1⟩ (c :: done) := by
  have noMark : (c == Text.mark) = false := by
    rw [beq_eq_false_iff_ne]
    rintro rfl
    exact absurd printable.2 (by decide)
  have taken : Cursor.code ⟨c :: after, position⟩ = ([c], ⟨after, position + 1⟩) := by
    cases after with
    | nil => rfl
    | cons d rest => simp [Cursor.code, noMark]
  rw [readString]
  simp [noEscape, taken, Nat.not_lt.2 printable.1]

theorem readString_unit (small : n < 0x10000) (goesOn : after ≠ [])
    (alone : Text.isHighHalf n = true → ∀ p, lowSurrogate? after p = .ok none) :
    readString start (fuel + 1) ⟨unitEscape n ++ after, position⟩ done =
      readString start fuel ⟨after, position + 6⟩ ((Text.charsOf n).reverse ++ done) := by
  have read := readUnitEscape_unit small goesOn alone (position + 2)
  rw [unitEscape, List.cons_append, List.cons_append, readString]
  simp only [Cursor.skip, List.drop_succ_cons, List.drop_zero]
  rw [read]
  rfl

/-- Two escapes in a row are read as a pair of halves. -/
theorem readString_pair (high : Text.isHighHalf m = true) (low : Text.isLowHalf n = true)
    (goesOn : after ≠ []) :
    readString start (fuel + 1) ⟨unitEscape m ++ (unitEscape n ++ after), position⟩ done =
      readString start fuel ⟨after, position + 12⟩
        ((Text.charsOf (Text.ofPair m n)).reverse ++ done) := by
  have read := readUnitEscape_pair high low goesOn (position + 2)
  rw [unitEscape, List.cons_append, List.cons_append, readString]
  simp only [Cursor.skip, List.drop_succ_cons, List.drop_zero]
  rw [read]
  rfl

/-- **One code point.** What is written for it is read as its characters, if it is no first half
that a second one stands behind. -/
theorem readString_escapeCode (small : n < 0x110000) (goesOn : after ≠ [])
    (alone : Text.isHighHalf n = true → ∀ p, lowSurrogate? after p = .ok none) :
    ∃ position', readString start (fuel + 1) ⟨escapeCode n ++ after, position⟩ done =
      readString start fuel ⟨after, position'⟩ ((Text.charsOf n).reverse ++ done) := by
  rcases Name.escapeCode_cases n with
    ⟨e, c, simple, rfl, escaped⟩ | ⟨c, noQuote, noEscape, rfl, plain⟩ | units
  · have letter := toNat_lt_of_simpleEscape simple
    rw [escaped, charsOf_toNat (by omega)]
    exact ⟨_, readString_letter start fuel position done simple⟩
  · have printable := printable_of_escapeCode plain
    rw [plain, charsOf_toNat (by omega)]
    exact ⟨_, readString_plain start fuel position done printable noQuote noEscape⟩
  · rw [units]
    rcases Nat.lt_or_ge n 0x10000 with first | beyond
    · rw [unitEscapes, if_pos first]
      exact ⟨_, readString_unit start fuel position done first goesOn alone⟩
    · obtain ⟨high, low, isHigh, isLow, whole, written⟩ := exists_pair beyond small
      rw [written, List.append_assoc, ← whole]
      exact ⟨_, readString_pair start fuel position done isHigh isLow goesOn⟩

end Read

end Steps

theorem readString_close (start fuel position : Nat) (rest done : List Char) :
    readString start (fuel + 1) ⟨'"' :: rest, position⟩ done =
      .ok (String.ofList done.reverse, ⟨rest, position + 1⟩) := by
  rw [readString]
  rfl

/-- Code points are read up to the quote behind them, with their pairs of halves joined. -/
theorem readString_escapes {ns : List Nat} (small : ∀ n ∈ ns, n < 0x110000) {fuel : Nat}
    (enough : ns.length < fuel) (start position : Nat) (rest done : List Char) :
    ∃ position', readString start fuel ⟨ns.flatMap escapeCode ++ '"' :: rest, position⟩ done =
      .ok (String.ofList (done.reverse ++ Text.ofCodes (joinPairs ns)), ⟨rest, position'⟩) := by
  fun_induction joinPairs ns generalizing fuel position done with
  | case1 m n ns pair ih =>
    obtain ⟨high, low⟩ := Bool.and_eq_true_iff.1 pair
    obtain ⟨-, -, small'⟩ : m < 0x110000 ∧ n < 0x110000 ∧ ∀ k ∈ ns, k < 0x110000 := by
      simpa [List.forall_mem_cons] using small
    obtain ⟨fuel, rfl⟩ : ∃ k, fuel = k + 1 := ⟨fuel - 1, by omega⟩
    have enough' : ns.length < fuel := by
      rw [List.length_cons, List.length_cons] at enough
      omega
    obtain ⟨position', others⟩ := ih small' enough' (position + 12)
      ((Text.charsOf (Text.ofPair m n)).reverse ++ done)
    refine ⟨position', ?_⟩
    rw [List.flatMap_cons, List.flatMap_cons, List.append_assoc, List.append_assoc,
      escapeCode_of_half (by rw [isHighHalf_iff] at high; omega),
      escapeCode_of_half (by rw [isLowHalf_iff] at low; omega),
      readString_pair start fuel position done high low (by simp), others]
    simp [Text.ofCodes]
  | case2 m n ns noPair ih =>
    obtain ⟨first, others⟩ := List.forall_mem_cons.1 small
    obtain ⟨fuel, rfl⟩ : ∃ k, fuel = k + 1 := ⟨fuel - 1, by omega⟩
    have alone (high : Text.isHighHalf m = true) (p : Nat) :
        lowSurrogate? ((n :: ns).flatMap escapeCode ++ '"' :: rest) p = .ok none := by
      rw [List.flatMap_cons, List.append_assoc]
      refine lowSurrogate?_escapeCode (others n List.mem_cons_self) ?_ (by simp) p
      simpa [high] using noPair
    obtain ⟨position', step⟩ :=
      readString_escapeCode start fuel position done first (by simp) alone
    obtain ⟨position'', read⟩ := ih others (Nat.lt_of_succ_lt_succ enough) position'
      ((Text.charsOf m).reverse ++ done)
    refine ⟨position'', ?_⟩
    rw [List.flatMap_cons, List.append_assoc, step, read]
    simp [Text.ofCodes]
  | case3 ns short =>
    obtain ⟨fuel, rfl⟩ : ∃ k, fuel = k + 1 := ⟨fuel - 1, by omega⟩
    rcases ns with _ | ⟨n, _ | ⟨k, ns⟩⟩
    · refine ⟨position + 1, ?_⟩
      rw [List.flatMap_nil, List.nil_append, readString_close]
      simp [Text.ofCodes]
    · obtain ⟨position', step⟩ := readString_escapeCode start fuel position done
        (small n List.mem_cons_self) (List.cons_ne_nil '"' rest) fun _ _ => rfl
      obtain ⟨fuel, rfl⟩ : ∃ k, fuel = k + 1 := ⟨fuel - 1, by simp at enough; omega⟩
      refine ⟨position' + 1, ?_⟩
      rw [List.flatMap_singleton, step, readString_close]
      simp [Text.ofCodes]
    · exact absurd rfl (short n k ns)

theorem length_le_flatMap_escapeCode (ns : List Nat) :
    ns.length ≤ (ns.flatMap escapeCode).length := by
  induction ns with
  | nil => exact Nat.le_refl 0
  | cons n ns ih =>
    have first : 0 < (escapeCode n).length := by
      rcases Name.escapeCode_cases n with ⟨e, c, -, -, escaped⟩ | ⟨c, -, -, -, plain⟩ | units
      · simp [escaped]
      · simp [plain]
      · rw [units, unitEscapes]
        split <;> simp [unitEscape]
    rw [List.flatMap_cons, List.length_append, List.length_cons]
    omega

/-- **A literal that is read back.** The literal of a text is a JSON text for the text, with its
pairs of halves joined. -/
theorem read_quote (s : String) : read (quote s) = .ok (.str (joined s)) := by
  have enough : (Text.codes s.toList).length <
      ((Text.codes s.toList).flatMap escapeCode ++ ['"']).length + 1 := by
    have := length_le_flatMap_escapeCode (Text.codes s.toList)
    rw [List.length_append]
    omega
  have small : ∀ n ∈ Text.codes s.toList, n < 0x110000 := lt_of_mem_codes
  obtain ⟨position, body⟩ := readString_escapes small enough 0 1 [] []
  have value : readValue (2 * (quote s).toList.length + 2) 0 (skipSpaces (quote s).toList 0) =
      .ok (.str (joined s), ⟨[], position⟩) := by
    rw [quote, String.toList_ofList, quoteChars, skipSpaces, if_neg (by decide), readValue]
    simp only [Cursor.skip, List.drop_succ_cons, List.drop_zero]
    rw [body]
    rfl
  have noMark : ((quote s).toList.head? == some (Char.ofNat 0xfeff)) = false := by
    rw [quote, String.toList_ofList, quoteChars, List.head?_cons]
    decide
  rw [read, value, noMark]
  rfl

end ClientGen.Json
