import ClientGen.Name.Identifier
import Mathlib.Data.List.Nodup
import Mathlib.Data.List.Perm.Subperm

/-!
# Distinct names

A name that is taken gets a number, and the name with the number is not taken
(`distinctFrom_not_mem`): numbers make names distinct (`numbered_injective`), and more of them are
tried than there are names. So names that are given one after the other are distinct
(`nodup_distinctNames`). The name with the number is the first free one of those that are tried
(`distinctFrom_eq_candidate`). A name that ends in no digit is got without a number only
(`mem_or_distinctFrom_iff`).
-/

namespace ClientGen.Name

theorem numbered_injective (base : String) :
    Function.Injective fun n : Nat => base ++ toString n := by
  intro m n h
  have texts := congrArg String.toList h
  simp only [String.toList_append] at texts
  have digits : (Nat.toDigits 10 m) = Nat.toDigits 10 n := by
    simpa only [Nat.toString_eq_repr, Nat.toList_repr] using List.append_cancel_left texts
  have numbers := congrArg (fun ds => Nat.ofDigitChars 10 ds 0) digits
  simpa using numbers

/-- The name that is found is free, or none of those tried is. -/
theorem firstNumbered_free (free : String → Bool) (base : String) (fuel suffix : Nat) :
    free (firstNumbered free base fuel suffix) = true ∨
      ∀ n, suffix ≤ n → n ≤ suffix + fuel → free (base ++ toString n) = false := by
  induction fuel generalizing suffix with
  | zero =>
    rw [firstNumbered]
    cases h : free (base ++ toString suffix) with
    | true => exact .inl rfl
    | false =>
      refine .inr fun n low high => ?_
      obtain rfl : n = suffix := by omega
      exact h
  | succ fuel ih =>
    rw [firstNumbered]
    cases h : free (base ++ toString suffix) with
    | true =>
      rw [if_pos rfl]
      exact .inl h
    | false =>
      rw [if_neg Bool.false_ne_true]
      refine (ih (suffix + 1)).imp_right fun others n low high => ?_
      rcases Nat.eq_or_lt_of_le low with rfl | above
      · exact h
      · exact others n above (by omega)

/-- A distinct name is none of those taken. -/
theorem distinctFrom_not_mem (taken : List String) (base : String) :
    distinctFrom taken base ∉ taken := by
  rw [distinctFrom]
  split
  · rcases firstNumbered_free (fun s => !taken.contains s) base taken.length 2 with found | none
    · simpa using found
    · -- As many names as were tried cannot all be taken.
      exfalso
      have numbers : (List.range' 2 (taken.length + 1)).map (fun n => base ++ toString n) ⊆
          taken := by
        intro name mem
        obtain ⟨n, range, rfl⟩ := List.mem_map.1 mem
        rw [List.mem_range'_1] at range
        simpa using none n range.1 (by omega)
      have distinct := (List.nodup_range' (s := 2) (n := taken.length + 1)).map
        (numbered_injective base)
      have short := (distinct.subperm numbers).length_le
      rw [List.length_map, List.length_range'] at short
      omega
  · next free => simpa using free

/-! ### Names one after the other -/

/-- Names that are given one after the other, each distinct from those used and from those given
before. -/
def distinctNames (used : List String) : List String → List String
  | [] => []
  | base :: rest =>
    let name := distinctFrom used base
    name :: distinctNames (name :: used) rest

/-- Names that are given one after the other are distinct and none of those used. -/
theorem nodup_distinctNames (used bases : List String) :
    (distinctNames used bases).Nodup ∧ ∀ name ∈ distinctNames used bases, name ∉ used := by
  induction bases generalizing used with
  | nil => exact ⟨.nil, List.forall_mem_nil _⟩
  | cons base rest ih =>
    obtain ⟨distinct, new⟩ := ih (distinctFrom used base :: used)
    rw [distinctNames, List.nodup_cons, List.forall_mem_cons]
    refine ⟨⟨fun mem => new _ mem List.mem_cons_self, distinct⟩,
      distinctFrom_not_mem used base, fun name mem old => ?_⟩
    exact new name mem (List.mem_cons_of_mem _ old)

/-! ### The names that are tried -/

/-- The names that are tried for a name, one after the other. -/
def candidate (base : String) : Nat → String
  | 0 => base
  | k + 1 => base ++ toString (k + 2)

/-- Numbers are tried in order, as long as the names with them are not free. -/
theorem firstNumbered_tried (free : String → Bool) (base : String) (fuel suffix : Nat) :
    ∃ k ≤ fuel, firstNumbered free base fuel suffix = base ++ toString (suffix + k) ∧
      ∀ j < k, free (base ++ toString (suffix + j)) = false := by
  induction fuel generalizing suffix with
  | zero => exact ⟨0, Nat.le_refl 0, rfl, nofun⟩
  | succ fuel ih =>
    rw [firstNumbered]
    cases h : free (base ++ toString suffix) with
    | true => exact ⟨0, Nat.zero_le _, by simp, nofun⟩
    | false =>
      obtain ⟨k, le, found, tried⟩ := ih (suffix + 1)
      refine ⟨k + 1, Nat.succ_le_succ le, ?_, fun j lt => ?_⟩
      · rw [if_neg Bool.false_ne_true, found, Nat.add_right_comm, Nat.add_assoc]
      · cases j with
        | zero => exact h
        | succ j =>
          rw [Nat.add_comm j, ← Nat.add_assoc]
          exact tried j (Nat.lt_of_succ_lt_succ lt)

/-- **The search for a name ends**: the name that is found is the first one of those tried that is
not taken, and no more than two names more are tried than are taken. -/
theorem distinctFrom_eq_candidate (taken : List String) (base : String) :
    ∃ k ≤ taken.length + 1, distinctFrom taken base = candidate base k ∧
      candidate base k ∉ taken ∧ ∀ j < k, candidate base j ∈ taken := by
  have free := distinctFrom_not_mem taken base
  by_cases used : taken.contains base = true
  · obtain ⟨k, le, found, tried⟩ :=
      firstNumbered_tried (fun s => !taken.contains s) base taken.length 2
    have name : distinctFrom taken base = candidate base (k + 1) := by
      rw [distinctFrom, if_pos used, found, candidate, Nat.add_comm]
    refine ⟨k + 1, Nat.succ_le_succ le, name, name ▸ free, fun j lt => ?_⟩
    cases j with
    | zero => exact List.contains_iff_mem.1 used
    | succ j =>
      have taken := tried j (Nat.lt_of_succ_lt_succ lt)
      rw [Nat.add_comm] at taken
      simpa [candidate] using taken
  · have name : distinctFrom taken base = base := by rw [distinctFrom, if_neg used]
    exact ⟨0, Nat.zero_le _, name, name ▸ free, nofun⟩

/-! ### Names with an ending -/

/-- A name with an ending is none of those without it. -/
theorem append_not_mem {ending : String} {names : List String}
    (other : ∀ name ∈ names, ¬ ending.toList <:+ name.toList) (s : String) : s ++ ending ∉ names :=
  fun mem => other _ mem ⟨s.toList, String.toList_append.symm⟩

/-! ### Names that end in no digit -/

/-- Whether a name ends in a digit. -/
def endsInDigit (s : String) : Bool := s.toList.getLast?.any Char.isDigit

theorem endsInDigit_numbered (base : String) (n : Nat) :
    endsInDigit (base ++ toString n) = true := by
  have digits : (toString n).toList = Nat.toDigits 10 n := by
    rw [Nat.toString_eq_repr, Nat.toList_repr]
  rw [endsInDigit, String.toList_append, digits,
    List.getLast?_append_of_ne_nil _ Nat.toDigits_ne_nil,
    List.getLast?_eq_some_getLast Nat.toDigits_ne_nil]
  exact Nat.isDigit_of_mem_toDigits (by decide) (by decide) (List.getLast_mem _)

/-- What is found is the name with a number. -/
theorem firstNumbered_eq (free : String → Bool) (base : String) (fuel suffix : Nat) :
    ∃ n : Nat, firstNumbered free base fuel suffix = base ++ toString n := by
  induction fuel generalizing suffix with
  | zero => exact ⟨suffix, rfl⟩
  | succ fuel ih =>
    rw [firstNumbered]
    split
    · exact ⟨suffix, rfl⟩
    · exact ih (suffix + 1)

theorem firstNumbered_ne {name : String} (noDigit : endsInDigit name = false)
    (free : String → Bool) (base : String) (fuel suffix : Nat) :
    firstNumbered free base fuel suffix ≠ name := by
  obtain ⟨n, found⟩ := firstNumbered_eq free base fuel suffix
  rintro rfl
  rw [found, endsInDigit_numbered] at noDigit
  cases noDigit

/-- A name that ends in no digit is taken, or gets taken, only by those that ask for it. -/
theorem mem_or_distinctFrom_iff {name : String} (noDigit : endsInDigit name = false)
    (taken : List String) (base : String) :
    name ∈ taken ∨ distinctFrom taken base = name ↔ name ∈ taken ∨ base = name := by
  rw [distinctFrom]
  split
  · next used =>
    have other := firstNumbered_ne noDigit (fun s => !taken.contains s) base taken.length 2
    constructor
    · rintro (mem | same)
      · exact .inl mem
      · exact absurd same other
    · rintro (mem | rfl)
      · exact .inl mem
      · exact .inl (by simpa using used)
  · exact Iff.rfl

/-- A name that ends in no digit is got exactly by asking for it while it is free. -/
theorem distinctFrom_eq_iff {name : String} (noDigit : endsInDigit name = false)
    (taken : List String) (base : String) :
    distinctFrom taken base = name ↔ base = name ∧ name ∉ taken := by
  have either := mem_or_distinctFrom_iff noDigit taken base
  constructor
  · intro same
    have free : name ∉ taken := same ▸ distinctFrom_not_mem taken base
    exact ⟨(either.1 (.inr same)).resolve_left free, free⟩
  · intro ⟨same, free⟩
    exact (either.2 (.inr same)).resolve_left free

end ClientGen.Name
