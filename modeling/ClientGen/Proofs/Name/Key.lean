import ClientGen.Json.Reader
import ClientGen.Name.Identifier

/-!
# Property names and their keys

A property name that is no identifier is written as a JSON literal, in ASCII and by UTF-16 units. So
the key of a property tells the units of its name (`unitName_eq_of_propertyKey_eq`), and names of
the same units have the same key: a character beyond the first plane is written like the two halves
of surrogate pairs that it is made of.
-/

namespace ClientGen.Name

open Json (escapeCode hexDigit hexDigits hexUnit? hexValue? simpleEscape? unitEscape unitEscapes)

/-- The UTF-16 units of a code point. -/
def units (n : Nat) : List Nat :=
  if n < 0x10000 then [n]
  else [0xd800 + (n - 0x10000) / 0x400, 0xdc00 + (n - 0x10000) % 0x400]

/-- A name with every character beyond the first plane as two halves of surrogate pairs. -/
def unitName (s : String) : String :=
  String.ofList (Text.ofCodes ((Text.codes s.toList).flatMap units))

theorem lt_of_mem_codes {cs : List Char} : ∀ n ∈ Text.codes cs, n < 0x110000 := by
  have bound (c : Char) : c.toNat < 0x110000 := by
    have valid := c.valid
    unfold Char.toNat
    rcases valid with low | ⟨-, high⟩
    · exact Nat.lt_trans low (by decide)
    · exact high
  have order (c : Char) : Text.orderCode c < 0x110000 := by
    have small := bound c
    rw [Text.orderCode]
    split <;> omega
  fun_induction Text.codes cs with
  | case1 => exact List.forall_mem_nil _
  | case2 c d rest _ ih => exact List.forall_mem_cons.2 ⟨bound d, ih⟩
  | case3 c d rest _ ih => exact List.forall_mem_cons.2 ⟨order c, ih⟩
  | case4 c => exact List.forall_mem_singleton.2 (order c)

theorem lt_of_mem_units {n u : Nat} (small : n < 0x110000) (mem : u ∈ units n) : u < 0x10000 := by
  rw [units] at mem
  split at mem
  · next first => rwa [List.mem_singleton.1 mem]
  · rw [List.mem_cons, List.mem_singleton] at mem
    omega

/-- What stands for a code point in a literal is a letter behind a backslash, its character or its
units in hexadecimal. -/
theorem escapeCode_cases (n : Nat) :
    (∃ e c, simpleEscape? e = some c ∧ c.toNat = n ∧ escapeCode n = ['\\', e]) ∨
    (∃ c, c ≠ '"' ∧ c ≠ '\\' ∧ c.toNat = n ∧ escapeCode n = [c]) ∨
    escapeCode n = unitEscapes n := by
  generalize written : escapeCode n = cs
  rw [escapeCode] at written
  split at written
  · next same => exact .inl ⟨'"', '"', rfl, same.symm, written.symm⟩
  next noQuote =>
  split at written
  · next same => exact .inl ⟨'\\', '\\', rfl, same.symm, written.symm⟩
  next noBackslash =>
  split at written
  · next same => exact .inl ⟨'n', '\n', rfl, same.symm, written.symm⟩
  split at written
  · next same => exact .inl ⟨'r', '\r', rfl, same.symm, written.symm⟩
  split at written
  · next same => exact .inl ⟨'t', '\t', rfl, same.symm, written.symm⟩
  split at written
  · next same => exact .inl ⟨'b', Char.ofNat 8, rfl, same.symm, written.symm⟩
  split at written
  · next same => exact .inl ⟨'f', Char.ofNat 12, rfl, same.symm, written.symm⟩
  split at written
  · next printable =>
    have whole : Text.isHalf n = false := by
      rw [Text.isHalf, Bool.and_eq_false_iff, decide_eq_false_iff_not]
      exact .inl (by omega)
    have number : (Char.ofNat n).toNat = n := Text.toNat_ofNat_of_not_half (by omega) whole
    have other (d : Char) (ne : n ≠ d.toNat) : Char.ofNat n ≠ d := fun same =>
      ne (number.symm.trans (congrArg Char.toNat same))
    exact .inr (.inl ⟨_, other '"' noQuote, other '\\' noBackslash, number, written.symm⟩)
  · exact .inr (.inr written.symm)

/-- Beyond the printable characters of ASCII a code point is written by its units. -/
theorem escapeCode_of_le {n : Nat} (high : 127 ≤ n) : escapeCode n = unitEscapes n := by
  rw [escapeCode]
  iterate 8 rw [if_neg (by omega)]

/-- A code point is written unit by unit. -/
theorem flatMap_units {n : Nat} (small : n < 0x110000) :
    (units n).flatMap escapeCode = escapeCode n := by
  rw [units]
  split
  · exact List.flatMap_singleton ..
  · next beyond =>
    rw [List.flatMap_cons, List.flatMap_singleton, escapeCode_of_le (by omega),
      escapeCode_of_le (by omega), escapeCode_of_le (by omega), unitEscapes, unitEscapes,
      unitEscapes, if_pos (by omega), if_pos (by omega), if_neg beyond]

/-! ### Reading units back -/

/-- The first unit of what is written in a literal, and what follows it. -/
def readUnit : List Char → Option (Nat × List Char)
  | '\\' :: 'u' :: a :: b :: c :: d :: rest => (hexUnit? [a, b, c, d]).map (·, rest)
  | '\\' :: e :: rest => (simpleEscape? e).map (·.toNat, rest)
  | c :: rest => some (c.toNat, rest)
  | [] => none

theorem hexValue?_hexDigit {n : Nat} (small : n < 16) : hexValue? (hexDigit n) = some n := by
  revert n
  decide

theorem hexUnit?_hexDigits {n : Nat} (small : n < 0x10000) : hexUnit? (hexDigits 4 n) = some n := by
  have digit (m : Nat) : hexValue? (hexDigit (m % 16)) = some (m % 16) :=
    hexValue?_hexDigit (Nat.mod_lt m (by decide))
  have value : ((n / 16 / 16 / 16 % 16 * 16 + n / 16 / 16 % 16) * 16 + n / 16 % 16) * 16 + n % 16
      = n := by omega
  simp only [hexDigits, List.nil_append, List.cons_append, hexUnit?, digit, Option.bind_eq_bind,
    Option.bind_some, value]
  rfl

theorem readUnit_unitEscape {u : Nat} (small : u < 0x10000) (rest : List Char) :
    readUnit (unitEscape u ++ rest) = some (u, rest) := by
  have read := hexUnit?_hexDigits small
  simp only [hexDigits, List.nil_append, List.cons_append] at read
  simp only [unitEscape, hexDigits, List.nil_append, List.cons_append, readUnit, read]
  rfl

theorem readUnit_of_ne {c : Char} (h : c ≠ '\\') (rest : List Char) :
    readUnit (c :: rest) = some (c.toNat, rest) := by
  rw [readUnit]
  · rintro _ _ _ _ _ rfl
    exact absurd rfl h
  · rintro _ _ rfl
    exact absurd rfl h

theorem readUnit_of_simpleEscape {e c : Char} (h : simpleEscape? e = some c) (rest : List Char) :
    readUnit ('\\' :: e :: rest) = some (c.toNat, rest) := by
  rw [readUnit, h]
  · rfl
  · rintro _ _ _ _ _ rfl
    nomatch h

/-- A unit is read back from what is written for it, whatever follows. -/
theorem readUnit_escapeCode {u : Nat} (small : u < 0x10000) (rest : List Char) :
    readUnit (escapeCode u ++ rest) = some (u, rest) := by
  rcases escapeCode_cases u with ⟨e, c, simple, rfl, escaped⟩ | ⟨c, -, noEscape, rfl, plain⟩ | units
  · rw [escaped]
    exact readUnit_of_simpleEscape simple rest
  · rw [plain]
    exact readUnit_of_ne noEscape rest
  · rw [units, unitEscapes, if_pos small]
    exact readUnit_unitEscape small rest

/-- Units are told apart by what is written for them. -/
theorem flatMap_escapeCode_inj {us vs : List Nat} (smallU : ∀ u ∈ us, u < 0x10000)
    (smallV : ∀ v ∈ vs, v < 0x10000) (same : us.flatMap escapeCode = vs.flatMap escapeCode) :
    us = vs := by
  induction us generalizing vs with
  | nil =>
    cases vs with
    | nil => rfl
    | cons v vs =>
      have read := readUnit_escapeCode (smallV v List.mem_cons_self) (vs.flatMap escapeCode)
      rw [← List.flatMap_cons, ← same] at read
      nomatch read
  | cons u us ih =>
    obtain ⟨smallFirst, smallRest⟩ := List.forall_mem_cons.1 smallU
    have read := readUnit_escapeCode smallFirst (us.flatMap escapeCode)
    rw [← List.flatMap_cons, same] at read
    cases vs with
    | nil => nomatch read
    | cons v vs =>
      obtain ⟨smallFirst', smallRest'⟩ := List.forall_mem_cons.1 smallV
      rw [List.flatMap_cons, readUnit_escapeCode smallFirst', Option.some.injEq,
        Prod.mk.injEq] at read
      obtain ⟨rfl, rest⟩ := read
      rw [ih smallRest smallRest' rest.symm]

/-! ### Keys -/

theorem isPlainKey_quote (s : String) : isPlainKey (Json.quote s) = false := by
  have last : ('"' :: ((Text.codes s.toList).flatMap escapeCode ++ ['"'])).getLast? = some '"' := by
    rw [← List.cons_append]
    exact List.getLast?_concat
  rw [isPlainKey, Json.quote, String.toList_ofList, Json.quoteChars, dropFinalBreak, last]
  rfl

/-- Names with the same key have the same units. -/
theorem unitName_eq_of_propertyKey_eq {s t : String} (same : propertyKey s = propertyKey t) :
    unitName s = unitName t := by
  by_cases plain : isPlainKey s = true
  · by_cases plain' : isPlainKey t = true
    · rw [propertyKey, propertyKey, if_pos plain, if_pos plain'] at same
      rw [same]
    · rw [propertyKey, propertyKey, if_pos plain, if_neg plain'] at same
      rw [same, isPlainKey_quote] at plain
      nomatch plain
  · by_cases plain' : isPlainKey t = true
    · rw [propertyKey, propertyKey, if_neg plain, if_pos plain'] at same
      rw [← same, isPlainKey_quote] at plain'
      nomatch plain'
    · rw [propertyKey, propertyKey, if_neg plain, if_neg plain', Json.quote, Json.quote,
        String.ofList_inj, Json.quoteChars, Json.quoteChars, List.cons_inj_right,
        List.append_cancel_right_eq] at same
      have byUnits (cs : List Char) : ((Text.codes cs).flatMap units).flatMap escapeCode =
          (Text.codes cs).flatMap escapeCode := by
        rw [List.flatMap_assoc, List.flatMap_def, List.flatMap_def,
          List.map_congr_left fun n mem => flatMap_units (lt_of_mem_codes n mem)]
      have small (cs : List Char) : ∀ u ∈ (Text.codes cs).flatMap units, u < 0x10000 := by
        intro u mem
        obtain ⟨n, code, mem⟩ := List.mem_flatMap.1 mem
        exact lt_of_mem_units (lt_of_mem_codes n code) mem
      rw [← byUnits, ← byUnits] at same
      rw [unitName, unitName, flatMap_escapeCode_inj (small _) (small _) same]

end ClientGen.Name
