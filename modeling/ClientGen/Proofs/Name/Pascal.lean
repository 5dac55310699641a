import ClientGen.Proofs.Name.Camel
import ClientGen.Proofs.Name.Distinct

/-!
# Names of types, made into names of types again

In the name of a type words stand without a mark between them, so reading it again finds them only
by their capitals. Two capitals side by side are one word, unless a small letter follows
(`humpBetween`), and all but the first letter of a word become small. So the name of a type stays
as it is exactly if a small letter follows wherever a capital follows another one
(`typeName_eq_self_iff`). `pet_status` is cut again where it was cut before (`PetStatus`), and `a_b`
is not: `AB` becomes `Ab`.
-/

namespace ClientGen.Name

/-! ### Letters -/

theorem isUpper_eq {c : Char} (h : c.isAlphanum = true) :
    c.isUpper = !(c.isLower || c.isDigit) :=
  (caseFacts_of_isAlphanum h).upper_eq

/-! ### Names without marks between words -/

/-- What becomes of the letters and digits behind another one: those that begin a word stay, and the
others become small. -/
def recased (before : Char) : List Char → List Char
  | [] => []
  | c :: rest => (if humpBetween before c rest then c else c.toLower) :: recased c rest

theorem length_recased (before : Char) (cs : List Char) :
    (recased before cs).length = cs.length := by
  induction cs generalizing before with
  | nil => rfl
  | cons c rest ih => simp [recased, ih]

/-- The pieces of letters and digits. The first one begins where they begin; in small letters, and
with a capital at the beginning of the others, they are the letters `recased`. -/
theorem pieces_of_alphanum {c : Char} {rest : List Char}
    (alphanum : ∀ d ∈ c :: rest, d.isAlphanum = true) :
    ∃ piece pieces, Text.splitWhere (fun d => !d.isAlphanum) (markHumps (c :: rest)) =
        (c :: piece) :: pieces ∧ (∀ p ∈ pieces, p ≠ []) ∧
      piece.map Char.toLower ++ pieces.flatMap (fun p => capitalize (p.map Char.toLower)) =
        recased c rest := by
  induction rest generalizing c with
  | nil =>
    have kept := alphanum c List.mem_cons_self
    exact ⟨[], [], by simp [markHumps, Text.splitWhere, kept], nofun, rfl⟩
  | cons d rest ih =>
    obtain ⟨kept, others⟩ := List.forall_mem_cons.1 alphanum
    obtain ⟨piece, pieces, split, filled, text⟩ := ih others
    rw [markHumps, recased]
    by_cases hump : humpBetween c d rest = true
    · -- A word ends before `d`, so the pieces behind it are pieces of the whole.
      have capital : d.isUpper = true := by
        simp only [humpBetween, Bool.or_eq_true, Bool.and_eq_true] at hump
        rcases hump with ⟨⟨-, capital⟩, -⟩ | ⟨-, capital⟩ <;> exact capital
      have here : d.toLower.toUpper = d := by
        have cased := caseFacts_of_isAlphanum (others d List.mem_cons_self)
        rw [cased.toUpper_toLower, cased.toUpper_of_upper capital]
      refine ⟨[], (d :: piece) :: pieces, ?_, ?_, ?_⟩
      · rw [if_pos hump]
        have mark : ('_' : Char).isAlphanum = false := by decide
        simp [Text.splitWhere, kept, mark, split]
      · exact List.forall_mem_cons.2 ⟨List.cons_ne_nil _ _, filled⟩
      · rw [if_pos hump, ← text]
        simp [capitalize, here]
    · refine ⟨d :: piece, pieces, ?_, filled, ?_⟩
      · rw [if_neg hump]
        simp [Text.splitWhere, kept, split]
      · rw [if_neg hump, ← text]
        simp

/-- Letters and digits in Pascal case. -/
theorem toList_pascal {s : String} {c : Char} {rest : List Char} (text : s.toList = c :: rest)
    (alphanum : ∀ d ∈ c :: rest, d.isAlphanum = true) :
    (pascal s).toList = c.toUpper :: recased c rest := by
  obtain ⟨piece, pieces, split, filled, recase⟩ := pieces_of_alphanum alphanum
  have kept : pieces.filter (!·.isEmpty) = pieces := by
    refine List.filter_eq_self.2 fun p mem => ?_
    simpa using filled p mem
  have first := (caseFacts_of_isAlphanum (alphanum c List.mem_cons_self)).toUpper_toLower
  rw [pascal, String.toList_ofList, text, words, split, ← recase]
  simp [kept, capitalize, first, List.flatMap_map]

/-! ### Marks in front -/

theorem noLetter_of_mark {c : Char} (mark : c.isAlphanum = false) :
    c.isUpper = false ∧ c.isLower = false ∧ c.isDigit = false := by
  change ((c.isUpper || c.isLower) || c.isDigit) = false at mark
  simpa [and_assoc] using mark

/-- No word ends behind a mark. -/
theorem markHumps_cons_of_mark {c : Char} (mark : c.isAlphanum = false) (cs : List Char) :
    markHumps (c :: cs) = c :: markHumps cs := by
  cases cs with
  | nil => rfl
  | cons d rest =>
    obtain ⟨noUpper, noLower, noDigit⟩ := noLetter_of_mark mark
    have noHump : ¬humpBetween c d rest = true := by
      simp [humpBetween, noUpper, noLower, noDigit]
    rw [markHumps, if_neg noHump]

/-- A mark in front belongs to no word. -/
theorem words_cons_of_mark {c : Char} (mark : c.isAlphanum = false) (cs : List Char) :
    words (c :: cs) = words cs := by
  simp [words, markHumps_cons_of_mark mark, Text.splitWhere, mark]

theorem words_underscore (cs : List Char) : words ('_' :: cs) = words cs :=
  words_cons_of_mark (by decide) cs

/-! ### Names that stay -/

/-- Whether a small letter follows wherever a capital follows another one. -/
def tellsWords : List Char → Bool
  | c :: d :: rest =>
    (!(c.isUpper && d.isUpper) || rest.head?.any Char.isLower) && tellsWords (d :: rest)
  | _ => true

/-- A letter or digit stays if it begins a word or is no capital. -/
theorem stays_iff {c d : Char} (before : c.isAlphanum = true) (here : d.isAlphanum = true)
    (rest : List Char) : (if humpBetween c d rest then d else d.toLower) = d ↔
      (!(c.isUpper && d.isUpper) || rest.head?.any Char.isLower) = true := by
  have small := (caseFacts_of_isAlphanum here).toLower_eq_iff
  rw [humpBetween, isUpper_eq before]
  cases capital : d.isUpper with
  | false => simp [small.2 capital]
  | true =>
    have moves : d.toLower ≠ d := fun same => by
      rw [small.1 same] at capital
      cases capital
    cases c.isLower <;> cases c.isDigit <;> cases rest.head?.any Char.isLower <;> simp [moves]

theorem recased_eq_self_iff {c : Char} {rest : List Char}
    (alphanum : ∀ d ∈ c :: rest, d.isAlphanum = true) :
    recased c rest = rest ↔ tellsWords (c :: rest) = true := by
  induction rest generalizing c with
  | nil => exact iff_of_true rfl rfl
  | cons d rest ih =>
    obtain ⟨before, others⟩ := List.forall_mem_cons.1 alphanum
    rw [recased, List.cons.injEq, ih others, tellsWords, Bool.and_eq_true,
      stays_iff before (others d List.mem_cons_self)]

/-- Whether a name is spelled like that of a type: letters and digits that do not begin with a small
letter, behind an underscore if they begin with a digit. -/
inductive IsTypeName (s : String) : Prop
  | mk (c : Char) (rest : List Char) (alphanum : ∀ d ∈ c :: rest, d.isAlphanum = true)
      (large : c.toUpper = c)
      (text : s.toList = if c.isDigit then '_' :: c :: rest else c :: rest)

/-- The type name of a name that is spelled like one. -/
theorem toList_typeName {s : String} {c : Char} {rest : List Char}
    (alphanum : ∀ d ∈ c :: rest, d.isAlphanum = true) (large : c.toUpper = c)
    (text : s.toList = if c.isDigit then '_' :: c :: rest else c :: rest) :
    (typeName s).toList =
      if c.isDigit then '_' :: c :: recased c rest else c :: recased c rest := by
  have same : pascal s = pascal (String.ofList (c :: rest)) := by
    rw [pascal, pascal, text, String.toList_ofList]
    split
    · rw [words_underscore]
    · rfl
  have read : (pascal s).toList = c :: recased c rest := by
    rw [same, toList_pascal String.toList_ofList alphanum, large]
  have filled : (pascal s).isEmpty = false := by
    rw [Bool.eq_false_iff]
    intro none
    rw [String.isEmpty_iff.1 none] at read
    cases read
  rw [typeName]
  simp only [filled, guardDigit, read, List.head?_cons, Option.any_some]
  cases c.isDigit <;> simp [read]

theorem isTypeName_typeName (s : String) : IsTypeName (typeName s) := by
  by_cases none : pascal s = ""
  · rw [typeName, none]
    exact ⟨'U', ['n', 'n', 'a', 'm', 'e', 'd'], List.all_eq_true.1 rfl, rfl, rfl⟩
  · have filled : (pascal s).toList ≠ [] := fun empty => none (String.toList_eq_nil_iff.1 empty)
    obtain ⟨c, rest, text⟩ := List.exists_cons_of_ne_nil filled
    have alphanum : ∀ d ∈ c :: rest, d.isAlphanum = true := by
      rw [← text]
      exact isAlphanum_pascal s
    refine ⟨c, rest, alphanum, ?_, ?_⟩
    · -- The first letter is that of the first word.
      rw [pascal, String.toList_ofList] at text
      have good := areWords_words s.toList
      revert text good
      cases words s.toList with
      | nil =>
        intro text
        cases text
      | cons w ws =>
        intro text good
        obtain ⟨d, others, rfl⟩ := List.exists_cons_of_ne_nil (good.filled w List.mem_cons_self)
        cases text
        have alphanum := good.alphanum _ List.mem_cons_self d List.mem_cons_self
        exact (caseFacts_of_isAlphanum alphanum).toUpper_toUpper
    · rw [typeName]
      simp only [String.isEmpty_iff, none, if_false, guardDigit, text, List.head?_cons,
        Option.any_some]
      cases c.isDigit <;> simp [text]

/-- A name of a type with a number is spelled like one. -/
theorem IsTypeName.numbered {s : String} (h : IsTypeName s) (n : Nat) :
    IsTypeName (s ++ toString n) := by
  obtain ⟨c, rest, alphanum, large, text⟩ := h
  have digits : (toString n).toList = Nat.toDigits 10 n := by
    rw [Nat.toString_eq_repr, Nat.toList_repr]
  refine ⟨c, rest ++ Nat.toDigits 10 n, ?_, large, ?_⟩
  · intro d mem
    rw [← List.cons_append, List.mem_append] at mem
    rcases mem with mem | mem
    · exact alphanum d mem
    · have digit : d.isDigit = true :=
        Nat.isDigit_of_mem_toDigits (by decide) (by decide) mem
      rw [Char.isAlphanum, digit, Bool.or_true]
  · rw [String.toList_append, digits, text]
    cases c.isDigit <;> simp

theorem IsTypeName.distinctFrom {s : String} (h : IsTypeName s) (taken : List String) :
    IsTypeName (distinctFrom taken s) := by
  rw [Name.distinctFrom]
  split
  · obtain ⟨n, found⟩ := firstNumbered_eq (fun s => !taken.contains s) s taken.length 2
    rw [found]
    exact h.numbered n
  · exact h

/-- **Which names of types stay.** The name of a type is its own type name exactly if a small letter
follows wherever a capital follows another one. -/
theorem typeName_eq_self_iff {s : String} (h : IsTypeName s) :
    typeName s = s ↔ tellsWords s.toList = true := by
  obtain ⟨c, rest, alphanum, large, text⟩ := h
  have told : tellsWords s.toList = tellsWords (c :: rest) := by
    rw [text]
    split
    · rw [tellsWords]
      rfl
    · rfl
  rw [← String.toList_inj, toList_typeName alphanum large text, told,
    ← recased_eq_self_iff alphanum, text]
  cases c.isDigit <;> simp

theorem IsTypeName.length_typeName {s : String} (h : IsTypeName s) :
    (typeName s).length = s.length := by
  obtain ⟨c, rest, alphanum, large, text⟩ := h
  rw [← String.length_toList, ← String.length_toList, toList_typeName alphanum large text, text]
  cases c.isDigit <;> simp [length_recased]

/-- A name of a type that is distinct from others only by a number is longer than its own type
name, so one that stays as it is has got none. -/
theorem typeName_eq_self_of_distinctFrom {s : String} (h : IsTypeName s) {taken : List String}
    (same : Name.distinctFrom taken (typeName s) = s) : typeName s = s := by
  rw [Name.distinctFrom] at same
  split at same
  · obtain ⟨n, found⟩ := firstNumbered_eq (fun s => !taken.contains s) (typeName s) taken.length 2
    have long : (typeName s).length + (toString n).length = s.length := by
      rw [← String.length_append, ← found, same]
    have number : (toString n).length ≠ 0 := by
      rw [Nat.toString_eq_repr, ← String.length_toList, Nat.toList_repr]
      exact fun none => Nat.toDigits_ne_nil (List.length_eq_zero_iff.1 none)
    rw [h.length_typeName] at long
    omega
  · exact same

end ClientGen.Name
