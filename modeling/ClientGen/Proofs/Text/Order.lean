import ClientGen.Text.CodePoint
import Mathlib.Data.List.Nodup

/-!
# The order of texts

Texts compare code point by code point. The order is a strict total order: `compare_eq_iff_eq`
says that texts of one place are equal, and here it is shown that the order of two texts turned
round is that of the texts exchanged (`compare_swap`), and that coming before is transitive
(`compare_trans`). So a list has one order if it is sorted by distinct texts (`mergeSort_eq_of_perm`).
-/

namespace ClientGen.Text

theorem compareChars_swap : (cs ds : List Char) →
    compareChars ds cs = (compareChars cs ds).swap
  | [], [] => rfl
  | [], _ :: _ => rfl
  | _ :: _, [] => rfl
  | c :: cs, d :: ds => by
    rw [compareChars, compareChars]
    split
    · rw [if_neg (by omega)]
      rfl
    · split
      · rfl
      · exact compareChars_swap cs ds

/-- The order of two texts, exchanged. -/
theorem compare_swap (s t : String) : compare t s = (compare s t).swap :=
  compareChars_swap s.toList t.toList

/-- Characters come first by the first character, or else by the others. -/
theorem compareChars_cons_eq_lt_iff {c d : Char} {cs ds : List Char} :
    compareChars (c :: cs) (d :: ds) = .lt ↔
      orderCode c < orderCode d ∨ c = d ∧ compareChars cs ds = .lt := by
  rw [compareChars]
  split
  · next less => simp [less]
  · next notLess =>
    split
    · next more =>
      have different : c ≠ d := by
        rintro rfl
        exact notLess more
      simp [notLess, different]
    · next notMore =>
      have same : c = d := orderCode_inj (by omega)
      simp [same]

theorem compareChars_trans {cs ds es : List Char} (h : compareChars cs ds = .lt)
    (h' : compareChars ds es = .lt) : compareChars cs es = .lt := by
  induction cs generalizing ds es with
  | nil =>
    cases ds with
    | nil => simp [compareChars] at h
    | cons d ds =>
      cases es with
      | nil => simp [compareChars] at h'
      | cons e es => rfl
  | cons c cs ih =>
    cases ds with
    | nil => simp [compareChars] at h
    | cons d ds =>
      cases es with
      | nil => simp [compareChars] at h'
      | cons e es =>
        rw [compareChars_cons_eq_lt_iff] at h h' ⊢
        rcases h with less | ⟨rfl, others⟩
        · rcases h' with less' | ⟨rfl, -⟩
          · exact .inl (by omega)
          · exact .inl less
        · rcases h' with less' | ⟨rfl, others'⟩
          · exact .inl less'
          · exact .inr ⟨rfl, ih others others'⟩

/-- A text comes before all that a text behind it comes before. -/
theorem compare_trans {s t u : String} (h : compare s t = .lt) (h' : compare t u = .lt) :
    compare s u = .lt :=
  compareChars_trans h h'

/-! ### Sorting -/

theorem le_total (s t : String) : (le s t || le t s) = true := by
  rw [le, le, compare_swap s t]
  cases compare s t <;> rfl

theorem le_antisymm {s t : String} (h : le s t = true) (h' : le t s = true) : s = t := by
  rw [le] at h h'
  rw [compare_swap s t] at h'
  rw [← compare_eq_iff_eq]
  cases order : compare s t with
  | eq => rfl
  | lt =>
    rw [order] at h'
    cases h'
  | gt =>
    rw [order] at h
    cases h

theorem le_trans {s t u : String} (h : le s t = true) (h' : le t u = true) : le s u = true := by
  cases order : compare s t with
  | gt =>
    rw [le, order] at h
    cases h
  | eq => rwa [compare_eq_iff_eq.1 order]
  | lt =>
    cases order' : compare t u with
    | gt =>
      rw [le, order'] at h'
      cases h'
    | eq => rwa [← compare_eq_iff_eq.1 order']
    | lt =>
      rw [le, compare_trans order order']
      rfl

/-- Sorting by distinct texts does not depend on the order before. -/
theorem mergeSort_eq_of_perm {α : Type} {key : α → String} {as bs : List α} (perm : as.Perm bs)
    (distinct : (bs.map key).Nodup) :
    (as.mergeSort fun a b => le (key a) (key b)) = bs.mergeSort fun a b => le (key a) (key b) := by
  have sorted := @List.pairwise_mergeSort α (fun a b => le (key a) (key b))
    (fun _ _ _ => le_trans) (fun a b => le_total (key a) (key b))
  have members {cs : List α} (perm : cs.Perm bs) {a : α}
      (mem : a ∈ cs.mergeSort fun a b => le (key a) (key b)) : a ∈ bs :=
    perm.mem_iff.1 (List.mem_mergeSort.1 mem)
  refine List.Perm.eq_of_pairwise (fun a b mem mem' before behind => ?_) (sorted as) (sorted bs) ?_
  · exact List.inj_on_of_nodup_map distinct (members perm mem) (members (.refl _) mem')
      (le_antisymm before behind)
  · exact ((List.mergeSort_perm _ _).trans perm).trans (List.mergeSort_perm _ _).symm

end ClientGen.Text
