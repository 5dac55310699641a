import Mathlib.Data.List.Basic
import ClientGen.Text.Case

/-!
# Capital letters

A text in capital letters stays as it is when its letters are replaced by their capital form once
more (`upper_upper`). A text whose small form is in letters of ASCII has the same capital form as that
small form (`upper_lower`), apart from the sign for kelvin, whose small form is a `k`.
-/

namespace ClientGen.Text

/-- The characters of a capital form are their own capital forms. -/
theorem upperChar_of_mem_upperChar (c : Char) : ∀ d ∈ upperChar c, upperChar d = [d] := by
  have ascii : ∀ n < 128, upperChar (Char.ofNat n).toUpper = [(Char.ofNat n).toUpper] := by
    decide +kernel
  have table : (asciiCapitals.all fun p => p.2.toList.all fun d => upperChar d == [d]) = true := by
    decide +kernel
  intro d mem
  unfold upperChar at mem
  split at mem
  · next small =>
    have same := ascii c.toNat small
    rw [Char.ofNat_toNat] at same
    rw [List.mem_singleton.1 mem]
    exact same
  · next large =>
    cases found : asciiCapitals.lookup c with
    | none =>
      rw [found] at mem
      rw [List.mem_singleton.1 mem, upperChar, if_neg large, found]
      rfl
    | some capital =>
      obtain ⟨before, after, listed, -⟩ := List.lookup_eq_some_iff.1 found
      rw [found] at mem
      have capitals := List.all_eq_true.1 table (c, capital) (by simp [listed])
      exact beq_iff_eq.1 (List.all_eq_true.1 capitals d mem)

/-- Text in capital letters is its own capital form. -/
theorem upper_upper (s : String) : upper (upper s) = upper s := by
  have again (cs : List Char) :
      (cs.flatMap upperChar).flatMap upperChar = cs.flatMap upperChar := by
    rw [List.flatMap_assoc]
    refine List.flatMap_congr fun c _ => ?_
    rw [List.flatMap_congr (upperChar_of_mem_upperChar c), List.flatMap_singleton']
  unfold upper
  rw [String.toList_ofList, again]

/-! ### Small letters -/

/-- Whether a character is a small letter that only letters of ASCII have as their small form. -/
def isPlainSmall (c : Char) : Bool := c.isLower && c != 'k'

theorem toNat_lt_of_isLower {c : Char} (small : c.isLower = true) : c.toNat < 123 := by
  have between : (decide (c.val ≥ 'a'.val) && decide (c.val ≤ 'z'.val)) = true := small
  rw [Bool.and_eq_true, decide_eq_true_iff, decide_eq_true_iff] at between
  have last : c.val.toNat ≤ 122 := UInt32.le_iff_toNat_le.1 between.2
  exact Nat.lt_succ_of_le last

/-- The small forms of letters outside ASCII are beyond the letters of ASCII, save for that of the
sign for kelvin. -/
theorem capitalRuns_above : ∀ r ∈ capitalRuns, 123 ≤ (r.1 : Int) + r.2.2.2 ∨
    r.2.1 = r.1 ∧ (r.1 : Int) + r.2.2.2 = 107 := by
  decide +kernel

theorem isLower_ofNat_eq_false {n : Nat} (above : 123 ≤ n) : (Char.ofNat n).isLower = false := by
  by_cases valid : n.isValidChar
  · have code : (Char.ofNat n).toNat = n := by
      rw [Char.ofNat, dif_pos valid]
      rfl
    refine Bool.eq_false_iff.2 fun small => ?_
    have below := toNat_lt_of_isLower small
    omega
  · rw [Char.ofNat, dif_neg valid]
    rfl

theorem lt_of_isPlainSmall {c : Char} (plain : ∀ d ∈ lowerChar c, isPlainSmall d = true) :
    c.toNat < 128 := by
  by_contra large
  rw [lowerChar, if_neg large] at plain
  split at plain
  · exact absurd (plain _ (List.mem_cons_of_mem _ List.mem_cons_self)) (by decide)
  · dsimp only at plain
    split at plain
    · next r found =>
      have inside := List.find?_some found
      simp only [Bool.and_eq_true, decide_eq_true_iff] at inside
      have small := plain _ List.mem_cons_self
      rcases capitalRuns_above r (List.mem_of_find?_eq_some found) with above | ⟨one, kelvin⟩
      · rw [isPlainSmall, isLower_ofNat_eq_false (by omega)] at small
        cases small
      · have code : ((c.toNat : Int) + r.2.2.2).toNat = 107 := by omega
        rw [code] at small
        exact absurd small (by decide)
    · have small := plain c List.mem_cons_self
      rw [isPlainSmall, Bool.and_eq_true] at small
      have below := toNat_lt_of_isLower small.1
      omega

/-- A text whose small form is one of such letters has the same capital form as these. -/
theorem upper_lower {s : String} (plain : ∀ c ∈ (lower s).toList, isPlainSmall c = true) :
    upper (lower s) = upper s := by
  have each (before cs : List Char) (plain : ∀ c ∈ lowerFrom before cs, isPlainSmall c = true) :
      (lowerFrom before cs).flatMap upperChar = cs.flatMap upperChar := by
    induction cs generalizing before with
    | nil => rfl
    | cons c rest ih =>
      rw [lowerFrom, List.forall_mem_append] at plain
      have small : lowerBetween before c rest = lowerChar c := by
        rw [lowerBetween]
        split
        · next ends =>
          rw [lowerBetween, if_pos ends] at plain
          exact absurd (plain.1 _ List.mem_cons_self) (by decide)
        · rfl
      rw [small] at plain
      have ascii := lt_of_isPlainSmall plain.1
      have same : upperChar c.toLower = upperChar c := by
        have all : ∀ n < 128, upperChar (Char.ofNat n).toLower = upperChar (Char.ofNat n) := by
          decide +kernel
        have here := all c.toNat ascii
        rwa [Char.ofNat_toNat] at here
      rw [lowerFrom, List.flatMap_append, ih _ plain.2, small, lowerChar, if_pos ascii,
        List.flatMap_singleton, same, List.flatMap_cons]
  rw [upper, upper, lower, String.toList_ofList, each]
  rwa [lower, String.toList_ofList] at plain

end ClientGen.Text
