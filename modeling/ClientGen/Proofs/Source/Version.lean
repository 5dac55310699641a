import ClientGen.Proofs.Layout.Page
import ClientGen.Proofs.Text.Length
import ClientGen.Source.Version
import Mathlib.Data.List.Basic
import Mathlib.Data.List.TakeWhile

/-!
# Versions as numbers

A package needs a version of three numbers (`IsCoreVersion`). What it gets is three parts with dots
between them, written in digits of whatever script (`isDigits_of_mem_versionParts`), and it stays as
it is when a version is made of it again (`packageVersion_intercalate`).

**When the parts are numbers** (`packageVersion_isCore_iff`): exactly if the digits of each part
that is taken from the text are those from 0 to 9, without a zero in front. Neither is looked at, so
that a date keeps its zeros and a superscript counts as a digit (`packageVersion_keeps_digits`).
-/

namespace ClientGen.Source

open Text (allBlank isBlank isDigit splitAt splitWhere)

/-! ### Digits -/

/-- The numbers of the characters that leave no ink. -/
def blankCodes : List Nat :=
  List.range' 9 5 ++ List.range' 28 5 ++ [0x85, 0xA0, 0x1680] ++ List.range' 0x2000 11
    ++ [0x2028, 0x2029, 0x202F, 0x205F, 0x3000]

theorem toNat_mem_blankCodes {c : Char} (blank : isBlank c = true) : c.toNat ∈ blankCodes := by
  simp only [isBlank, Bool.or_eq_true, Bool.and_eq_true, decide_eq_true_eq, beq_iff_eq] at blank
  simp only [blankCodes, List.mem_append, List.mem_range'_1, List.mem_cons, List.not_mem_nil]
  omega

theorem isBlank_of_isDigit {c : Char} (digit : isDigit c = true) : isBlank c = false := by
  have apart : ∀ n ∈ blankCodes, isDigit (Char.ofNat n) = false := by decide
  rw [Bool.eq_false_iff]
  intro blank
  have none := apart c.toNat (toNat_mem_blankCodes blank)
  rw [Char.ofNat_toNat, digit] at none
  cases none

/-- A digit is none of the characters that a version is cut at. -/
theorem ne_of_isDigit_text {c d : Char} (digit : isDigit c = true) (other : isDigit d = false) :
    c ≠ d := by
  rintro rfl
  rw [digit] at other
  cases other

/-- Whether a text is written in digits, of whatever script. -/
def IsDigits (s : String) : Prop := s ≠ "" ∧ ∀ c ∈ s.toList, isDigit c = true

instance (s : String) : Decidable (IsDigits s) :=
  decidable_of_iff (s.isEmpty = false ∧ s.toList.all isDigit = true)
    (and_congr String.isEmpty_eq_false_iff List.all_eq_true)

/-- Whether a text is a number: digits from 0 to 9, without a zero in front of others. -/
structure IsNumber (s : String) : Prop where
  filled : s ≠ ""
  digits : ∀ c ∈ s.toList, c.isDigit = true
  noZero : s.toList.head? = some '0' → s = "0"

instance (s : String) : Decidable (IsNumber s) :=
  decidable_of_iff
    (s.isEmpty = false ∧ s.toList.all Char.isDigit = true ∧
      (s.toList.head? = some '0' → s = "0"))
    ⟨fun ⟨filled, digits, noZero⟩ =>
        ⟨String.isEmpty_eq_false_iff.1 filled, List.all_eq_true.1 digits, noZero⟩,
      fun ⟨filled, digits, noZero⟩ =>
        ⟨String.isEmpty_eq_false_iff.2 filled, List.all_eq_true.2 digits, noZero⟩⟩

theorem isNumber_zero : IsNumber "0" := by decide

theorem isDigits_zero : IsDigits "0" := by decide

theorem IsDigits.allBlank_eq_false {s : String} (h : IsDigits s) : allBlank s = false := by
  obtain ⟨filled, digits⟩ := h
  rw [allBlank, List.all_eq_false]
  cases chars : s.toList with
  | nil => exact absurd (String.toList_eq_nil_iff.1 chars) filled
  | cons c rest =>
    rw [chars] at digits
    refine ⟨c, List.mem_cons_self, ?_⟩
    simp [isBlank_of_isDigit (digits c List.mem_cons_self)]

/-! ### Parts of a version -/

theorem versionPart_eq (part : String) :
    versionPart part = if IsDigits part then part else "0" := by
  unfold versionPart
  by_cases digits : IsDigits part
  · have all : part.toList.all isDigit = true := List.all_eq_true.2 digits.2
    simp [digits, all, digits.1]
  · rw [if_neg digits, if_neg]
    intro read
    simp only [Bool.and_eq_true, Bool.not_eq_true', String.isEmpty_eq_false_iff] at read
    exact digits ⟨read.1, List.all_eq_true.1 read.2⟩

theorem isDigits_versionPart (part : String) : IsDigits (versionPart part) := by
  rw [versionPart_eq]
  split
  · assumption
  · exact isDigits_zero

theorem isNumber_versionPart_iff (part : String) :
    IsNumber (versionPart part) ↔ (IsDigits part → IsNumber part) := by
  rw [versionPart_eq]
  split
  · next digits => exact ⟨fun number _ => number, fun numbers => numbers digits⟩
  · next other => exact iff_of_true isNumber_zero fun digits => absurd digits other

/-- The parts that a version text gives, between the dots of its core; blank ones do not count. -/
def givenParts (version : String) : List String :=
  (splitAt '.' (versionCore version)).filter (!allBlank ·)

/-- The three parts of the version for a text. -/
def versionParts (version : String) : List String :=
  match givenParts version with
  | [] => ["0", "1", "0"]
  | parts => (parts.map versionPart ++ ["0", "0"]).take 3

theorem packageVersion_eq (version : String) :
    packageVersion version = ".".intercalate (versionParts version) := by
  unfold packageVersion versionParts givenParts
  cases (splitAt '.' (versionCore version)).filter (!allBlank ·) with
  | nil => decide
  | cons major rest =>
    cases rest with
    | nil => rfl
    | cons minor rest => cases rest <;> rfl

theorem length_versionParts (version : String) : (versionParts version).length = 3 := by
  unfold versionParts
  split
  · rfl
  · next given =>
    obtain ⟨major, rest, eq⟩ := List.exists_cons_of_ne_nil given
    rw [eq, List.length_take, List.length_append, List.map_cons, List.length_cons]
    simp

theorem isDigits_of_mem_versionParts {version part : String} (mem : part ∈ versionParts version) :
    IsDigits part := by
  have standard : ∀ part ∈ ["0", "1", "0"], IsDigits part := by decide
  have filler : ∀ part ∈ ["0", "0"], IsDigits part := by decide
  unfold versionParts at mem
  split at mem
  · exact standard part mem
  · rcases List.mem_append.1 (List.mem_of_mem_take mem) with given | added
    · obtain ⟨source, -, rfl⟩ := List.mem_map.1 given
      exact isDigits_versionPart source
    · exact filler part added

/-- The parts are numbers if those are that the text gives in digits. -/
theorem forall_isNumber_versionParts_iff (version : String) :
    (∀ part ∈ versionParts version, IsNumber part) ↔
      ∀ part ∈ (givenParts version).take 3, IsDigits part → IsNumber part := by
  unfold versionParts
  split
  · next none =>
    rw [none]
    exact iff_of_true (by decide) (List.forall_mem_nil _)
  · have filler : ∀ part ∈ ["0", "0"], IsNumber part := by decide
    have added : ∀ part ∈ ["0", "0"].take (3 - (givenParts version).length), IsNumber part :=
      fun part mem => filler part (List.mem_of_mem_take mem)
    rw [List.take_append, List.forall_mem_append, List.length_map, and_iff_left added,
      ← List.map_take, List.forall_mem_map]
    exact forall₂_congr fun part _ => isNumber_versionPart_iff part

/-! ### Versions of three numbers -/

/-- Whether a text is three numbers with dots between them. -/
structure IsCoreVersion (version : String) : Prop where
  three : (splitAt '.' version).length = 3
  numbers : ∀ part ∈ splitAt '.' version, IsNumber part

instance (version : String) : Decidable (IsCoreVersion version) :=
  decidable_of_iff
    ((splitAt '.' version).length = 3 ∧ ∀ part ∈ splitAt '.' version, IsNumber part)
    ⟨fun ⟨three, numbers⟩ => ⟨three, numbers⟩, fun ⟨three, numbers⟩ => ⟨three, numbers⟩⟩

theorem splitAt_intercalate {parts : List String} (nonempty : parts ≠ [])
    (apart : ∀ part ∈ parts, '.' ∉ part.toList) : splitAt '.' (".".intercalate parts) = parts := by
  induction parts with
  | nil => exact absurd rfl nonempty
  | cons part others ih =>
    obtain ⟨first, rest⟩ := List.forall_mem_cons.1 apart
    by_cases last : others = []
    · subst last
      rw [String.intercalate_singleton, splitAt, Text.splitWhere_of_not_mem first]
      simp
    · have chars : (".".intercalate (part :: others)).toList =
          part.toList ++ '.' :: (".".intercalate others).toList := by
        rw [String.intercalate_cons_of_ne_nil last]
        simp
      have behind := ih last rest
      rw [splitAt] at behind ⊢
      rw [chars, Text.splitWhere_append_cons (p := (· == '.')) rfl,
        Text.splitWhere_of_not_mem first, List.map_append, behind]
      simp

theorem dot_not_mem_of_isDigits {part : String} (h : IsDigits part) : '.' ∉ part.toList := by
  intro mem
  exact absurd rfl (ne_of_isDigit_text (h.2 '.' mem) (by decide))

theorem splitAt_packageVersion (version : String) :
    splitAt '.' (packageVersion version) = versionParts version := by
  rw [packageVersion_eq]
  apply splitAt_intercalate
  · intro none
    have three := length_versionParts version
    rw [none] at three
    cases three
  · exact fun part mem => dot_not_mem_of_isDigits (isDigits_of_mem_versionParts mem)

/-- Nothing is cut off of digits and dots. -/
theorem versionCore_eq_self {s : String} (plain : ∀ c ∈ s.toList, isDigit c = true ∨ c = '.') :
    versionCore s = s := by
  have shown : ∀ c ∈ s.toList, isBlank c = false := by
    intro c mem
    rcases plain c mem with digit | rfl
    · exact isBlank_of_isDigit digit
    · decide
  have kept : ∀ d : Char, isDigit d = false → d ≠ '.' → ∀ c ∈ s.toList, (c != d) = true := by
    intro d other noDot c mem
    rw [bne_iff_ne]
    rcases plain c mem with digit | rfl
    · exact ne_of_isDigit_text digit other
    · exact noDot.symm
  have trimmed : (Text.trim s).toList = s.toList := by
    rw [Text.trim, Text.stripWhile, String.toList_ofList, List.dropWhile_eq_self_iff.2,
      Text.dropEndWhile_of_getLast]
    · exact fun c last => shown c (List.mem_of_getLast? last)
    · intro some
      simp [shown _ (List.getElem_mem some)]
  show String.ofList ((((Text.trim s).toList.dropWhile (· == 'v')).takeWhile (· != '-')).takeWhile
    (· != '+')) = s
  rw [trimmed, List.dropWhile_eq_self_iff.2, List.takeWhile_eq_self_iff.2 (kept '-' (by decide)
    (by decide)), List.takeWhile_eq_self_iff.2 (kept '+' (by decide) (by decide)),
    String.ofList_toList]
  intro some
  have first := kept 'v' (by decide) (by decide) _ (List.getElem_mem some)
  simpa using first

/-- A character of parts with dots between them stands in a part or is a dot. -/
theorem mem_part_or_eq_dot {parts : List String} {c : Char}
    (mem : c ∈ (".".intercalate parts).toList) : (∃ part ∈ parts, c ∈ part.toList) ∨ c = '.' := by
  induction parts with
  | nil => simp at mem
  | cons part others ih =>
    by_cases last : others = []
    · subst last
      rw [String.intercalate_singleton] at mem
      exact .inl ⟨part, List.mem_cons_self, mem⟩
    · rw [String.intercalate_cons_of_ne_nil last, String.toList_append, String.toList_append,
        List.mem_append, List.mem_append] at mem
      rcases mem with (here | dot) | behind
      · exact .inl ⟨part, List.mem_cons_self, here⟩
      · exact .inr (List.mem_singleton.1 dot)
      · rcases ih behind with ⟨other, among, there⟩ | dot
        · exact .inl ⟨other, List.mem_cons_of_mem _ among, there⟩
        · exact .inr dot

/-- Three parts in digits are a version as they are. -/
theorem packageVersion_intercalate {parts : List String} (three : parts.length = 3)
    (digits : ∀ part ∈ parts, IsDigits part) :
    packageVersion (".".intercalate parts) = ".".intercalate parts := by
  have nonempty : parts ≠ [] := List.ne_nil_of_length_pos (by omega)
  have plain : ∀ c ∈ (".".intercalate parts).toList, isDigit c = true ∨ c = '.' := by
    intro c mem
    rcases mem_part_or_eq_dot mem with ⟨part, among, within⟩ | dot
    · exact .inl ((digits part among).2 c within)
    · exact .inr dot
  have given : givenParts (".".intercalate parts) = parts := by
    rw [givenParts, versionCore_eq_self plain, splitAt_intercalate nonempty
      fun part mem => dot_not_mem_of_isDigits (digits part mem)]
    refine List.filter_eq_self.2 fun part mem => ?_
    simp [(digits part mem).allBlank_eq_false]
  have stays : parts.map versionPart = parts := by
    rw [List.map_congr_left fun part mem => (versionPart_eq part).trans (if_pos (digits part mem)),
      List.map_id']
  have same : versionParts (".".intercalate parts) = parts := by
    rw [versionParts, given]
    split
    · exact absurd rfl nonempty
    · rw [stays, List.take_append_of_le_length three.ge, List.take_of_length_le three.le]
  rw [packageVersion_eq, same]

/-- **When a package has a version of three numbers.** Its version is always three parts in digits,
and is made of itself. The parts are numbers exactly if those of the first three parts of the text
that are written in digits are numbers. -/
theorem packageVersion_isCore_iff (version : String) :
    (∃ major minor patch, splitAt '.' (packageVersion version) = [major, minor, patch] ∧
      IsDigits major ∧ IsDigits minor ∧ IsDigits patch) ∧
    packageVersion (packageVersion version) = packageVersion version ∧
    (IsCoreVersion (packageVersion version) ↔
      ∀ part ∈ (givenParts version).take 3, IsDigits part → IsNumber part) := by
  have digits : ∀ part ∈ versionParts version, IsDigits part :=
    fun part => isDigits_of_mem_versionParts
  refine ⟨?parts, ?again, ?numbers⟩
  case parts =>
    obtain ⟨major, minor, patch, eq⟩ := List.length_eq_three.1 (length_versionParts version)
    rw [eq] at digits
    simp only [List.forall_mem_cons] at digits
    obtain ⟨first, second, third, -⟩ := digits
    exact ⟨major, minor, patch, (splitAt_packageVersion version).trans eq, first, second, third⟩
  case again =>
    rw [packageVersion_eq version]
    exact packageVersion_intercalate (length_versionParts version) digits
  case numbers =>
    rw [← forall_isNumber_versionParts_iff, ← splitAt_packageVersion]
    constructor
    · exact fun core => core.numbers
    · intro numbers
      refine ⟨?_, numbers⟩
      rw [splitAt_packageVersion]
      exact length_versionParts version

/-- A date keeps the zeros of its month, and a superscript stays in the version. -/
theorem packageVersion_keeps_digits :
    (packageVersion "2024.01.15" = "2024.01.15" ∧ ¬IsCoreVersion (packageVersion "2024.01.15")) ∧
      packageVersion "1.²" = "1.².0" ∧ ¬IsCoreVersion (packageVersion "1.²") := by
  have date : packageVersion "2024.01.15" = "2024.01.15" := by decide
  have power : packageVersion "1.²" = "1.².0" := by decide
  rw [date, power]
  exact ⟨⟨rfl, by decide⟩, rfl, by decide⟩

end ClientGen.Source
