import ClientGen.Value.Basic
import Mathlib.Algebra.Field.Rat

/-!
# Keys

Keys name the same entry if they are one key or count as one number or one moment (`Key.same_iff`). So
to name the same entry is an equivalence.

A mapping that was read has no key twice, and none of the mappings in it has (`Value.keysDiffer`).
Then an entry is found under its key (`Value.find?_of_mem`).
-/

namespace ClientGen

/-! ### Keys that name the same entry -/

theorem Decimal.fraction?_pos {d : Decimal} {m : Int} {n : Nat} (h : d.fraction? = some (m, n)) :
    0 < n := by
  cases d with
  | finite negative digits exponent =>
    rw [Decimal.fraction?] at h
    obtain ⟨-, rfl⟩ := Prod.mk.inj (Option.some.inj h)
    dsimp only
    split
    · exact Nat.one_pos
    · exact Nat.pow_pos Nat.two_pos
  | _ => cases h

namespace Key

theorem fraction?_pos {k : Key} {m : Int} {n : Nat} (h : k.fraction? = some (m, n)) : 0 < n := by
  cases k with
  | bool b | int i =>
    obtain ⟨-, rfl⟩ := Prod.mk.inj (Option.some.inj h)
    exact Nat.one_pos
  | float d => exact Decimal.fraction?_pos h
  | _ => cases h

/-- What a key counts as when keys are compared: a number, or a moment. -/
def measure? : Key → Option (ℚ ⊕ ℤ)
  | .other (.moment t) => t.instant?.map .inr
  | k => k.fraction?.map fun (m, n) => .inl (m / n)

theorem fractions_same_iff {a b : Key} : (match a.fraction?, b.fraction? with
      | some (m, p), some (n, q) => m * q == n * p
      | _, _ => false) = true ↔
    ∃ r : ℚ, (a.fraction?.map fun (m, n) => (m / n : ℚ)) = some r ∧
      (b.fraction?.map fun (m, n) => (m / n : ℚ)) = some r := by
  cases left : a.fraction? with
  | none => simp
  | some mp =>
    cases right : b.fraction? with
    | none => simp
    | some nq =>
      obtain ⟨m, p⟩ := mp
      obtain ⟨n, q⟩ := nq
      have hp : (p : ℚ) ≠ 0 := Nat.cast_ne_zero.2 (fraction?_pos left).ne'
      have hq : (q : ℚ) ≠ 0 := Nat.cast_ne_zero.2 (fraction?_pos right).ne'
      simp only [beq_iff_eq, Option.map_some, Option.some.injEq, exists_eq_left']
      rw [div_eq_div_iff hq hp, eq_comm]
      exact_mod_cast Iff.rfl

theorem measure?_eq_inl_iff {k : Key} {r : ℚ} : k.measure? = some (.inl r) ↔
    (k.fraction?.map fun (m, n) => (m / n : ℚ)) = some r := by
  unfold measure?
  split
  · simp [fraction?]
  · simp [Option.map_eq_some_iff]

theorem measure?_eq_inr_iff {k : Key} {n : ℤ} : k.measure? = some (.inr n) ↔
    ∃ t : Timestamp, k = .other (.moment t) ∧ t.instant? = some n := by
  unfold measure?
  split
  · simp
  · next other =>
    simp only [Option.map_eq_some_iff, reduceCtorEq, and_false, exists_const, false_iff]
    rintro ⟨t, same, -⟩
    exact other t same

theorem moments_same_iff {t u : Timestamp} :
    t.same u = true ↔ t = u ∨ ∃ n, t.instant? = some n ∧ u.instant? = some n := by
  rw [Timestamp.same, Bool.or_eq_true, beq_iff_eq]
  refine or_congr_right ?_
  cases t.instant? with
  | none => simp
  | some m =>
    cases u.instant? with
    | none => simp
    | some n => simpa using eq_comm

/-- Keys name the same entry if they are one key or count as the same. -/
theorem same_iff {a b : Key} :
    a.same b = true ↔ a = b ∨ ∃ r, a.measure? = some r ∧ b.measure? = some r := by
  unfold same
  rw [Bool.or_eq_true, beq_iff_eq, Sum.exists]
  simp only [measure?_eq_inl_iff, measure?_eq_inr_iff]
  split
  · next t u => simp [moments_same_iff, fraction?]
  · next other =>
    refine or_congr_right (fractions_same_iff.trans (iff_self_or.2 ?_))
    rintro ⟨n, ⟨t, rfl, -⟩, u, rfl, -⟩
    exact (other t u rfl rfl).elim

theorem same_refl (k : Key) : k.same k = true := same_iff.2 (.inl rfl)

theorem same_symm {a b : Key} (h : a.same b = true) : b.same a = true := by
  rw [same_iff] at h ⊢
  exact h.imp Eq.symm fun ⟨r, left, right⟩ => ⟨r, right, left⟩

theorem same_trans {a b c : Key} (h : a.same b = true) (h' : b.same c = true) :
    a.same c = true := by
  rw [same_iff] at h h' ⊢
  rcases h with rfl | ⟨r, left, middle⟩
  · exact h'
  · rcases h' with rfl | ⟨r', middle', right⟩
    · exact .inr ⟨r, left, middle⟩
    · obtain rfl := Option.some.inj (middle.symm.trans middle')
      exact .inr ⟨r, left, right⟩

end Key

/-! ### Mappings with distinct keys -/

namespace Value

mutual

/-- Whether no mapping in a value has two entries under one key. -/
def keysDiffer : Value → Bool
  | .map es => decide (es.map (·.1)).Nodup && keysDifferInMembers es
  | .list items => keysDifferInItems items
  | _ => true

/-- Whether no mapping in the items of a list has two entries under one key. -/
def keysDifferInItems : List Value → Bool
  | [] => true
  | v :: rest => keysDiffer v && keysDifferInItems rest

/-- Whether no mapping in the values of a mapping has two entries under one key. -/
def keysDifferInMembers : List (Key × Value) → Bool
  | [] => true
  | (_, v) :: rest => keysDiffer v && keysDifferInMembers rest

end

theorem keysDiffer_find? {es : Entries} (h : keysDifferInMembers es = true) {name : String}
    {v : Value} (found : es.find? name = some v) : keysDiffer v = true := by
  induction es with
  | nil => cases found
  | cons e rest ih =>
    rw [keysDifferInMembers, Bool.and_eq_true] at h
    rw [Entries.find?] at found
    split at found
    · rw [← Option.some.inj found]
      exact h.1
    · exact ih h.2 found

theorem keysDiffer_get {es : Entries} (h : keysDiffer (.map es) = true) (name : String) :
    keysDiffer (es.get name) = true := by
  rw [keysDiffer, Bool.and_eq_true] at h
  rw [Entries.get]
  cases found : es.find? name with
  | none => rfl
  | some v => exact keysDiffer_find? h.2 found

theorem find?_of_mem {es : Entries} (distinct : (es.map (·.1)).Nodup) {name : String} {v : Value}
    (mem : (Key.str name, v) ∈ es) : es.find? name = some v := by
  induction es with
  | nil => cases mem
  | cons e rest ih =>
    rw [List.map_cons, List.nodup_cons] at distinct
    rw [Entries.find?]
    rcases List.mem_cons.1 mem with rfl | mem
    · rw [if_pos rfl]
    · have other : e.1 ≠ .str name := fun same =>
        distinct.1 (same ▸ List.mem_map_of_mem mem)
      rw [if_neg other, ih distinct.2 mem]

end Value

end ClientGen
