import ClientGen.Schema.Basic
import Mathlib.Data.List.Nodup

/-!
# Lists of pairs

What stands under a name in a list of pairs. Setting a name changes what stands under it and nothing
else (`lookup_setPair`), and the other names keep their places (`keys_setPair`). Where every name
stands once the order of the pairs does not matter (`lookup_eq_of_perm`).
-/

namespace ClientGen

variable {β : Type}

theorem lookup_cons_eq (name : String) (value : β) (pairs : List (String × β))
    (other : String) : List.lookup other ((name, value) :: pairs) =
      if other = name then some value else pairs.lookup other := by
  rw [List.lookup_cons]
  by_cases same : other = name
  · rw [if_pos same, beq_iff_eq.2 same]
  · rw [if_neg same, beq_eq_false_iff_ne.2 same]

theorem lookup_setPair (name : String) (value : β) (pairs : List (String × β))
    (other : String) :
    (Schema.setPair name value pairs).lookup other =
      if other = name then some value else pairs.lookup other := by
  induction pairs with
  | nil => exact lookup_cons_eq name value [] other
  | cons pair rest ih =>
    obtain ⟨n, v⟩ := pair
    unfold Schema.setPair
    by_cases here : n = name
    · subst here
      rw [if_pos rfl, lookup_cons_eq, lookup_cons_eq]
      split <;> rfl
    · rw [if_neg here, lookup_cons_eq, lookup_cons_eq, ih]
      by_cases first : other = n
      · rw [if_pos first, if_pos first, if_neg (first ▸ here)]
      · rw [if_neg first, if_neg first]

/-- Setting a name keeps the names and their order, save for a new one, which comes last. -/
theorem keys_setPair (name : String) (value : β) (pairs : List (String × β)) :
    (Schema.setPair name value pairs).map (·.1) =
      if name ∈ pairs.map (·.1) then pairs.map (·.1) else pairs.map (·.1) ++ [name] := by
  induction pairs with
  | nil => rfl
  | cons pair rest ih =>
    obtain ⟨n, v⟩ := pair
    rw [Schema.setPair]
    by_cases here : n = name
    · simp [here]
    · rw [if_neg here, List.map_cons, ih]
      by_cases later : name ∈ rest.map (·.1)
      · simp only [List.map_cons, List.mem_cons, later, or_true, if_true]
      · simp only [List.map_cons, List.mem_cons, later, or_false, Ne.symm here, if_false,
          List.cons_append]

theorem nodup_keys_setPair (name : String) (value : β) {pairs : List (String × β)}
    (distinct : (pairs.map (·.1)).Nodup) :
    ((Schema.setPair name value pairs).map (·.1)).Nodup := by
  rw [keys_setPair]
  split
  · exact distinct
  · next new =>
    refine List.nodup_append'.2 ⟨distinct, List.nodup_singleton name, fun n old mem => ?_⟩
    exact new (List.mem_singleton.1 mem ▸ old)

theorem mem_setPair {name : String} {value : β} {pairs : List (String × β)} {pair : String × β}
    (mem : pair ∈ Schema.setPair name value pairs) : pair = (name, value) ∨ pair ∈ pairs := by
  induction pairs with
  | nil => exact .inl (List.mem_singleton.1 mem)
  | cons first rest ih =>
    obtain ⟨n, v⟩ := first
    rw [Schema.setPair] at mem
    split at mem
    · next here =>
      rcases List.mem_cons.1 mem with rfl | later
      · exact .inl (by rw [here])
      · exact .inr (List.mem_cons_of_mem _ later)
    · rcases List.mem_cons.1 mem with rfl | later
      · exact .inr List.mem_cons_self
      · exact (ih later).imp_right (List.mem_cons_of_mem _)

theorem mem_keys_iff_isSome_lookup {pairs : List (String × β)} {name : String} :
    name ∈ pairs.map (·.1) ↔ (pairs.lookup name).isSome = true := by
  rw [List.lookup_isSome_iff, List.mem_map]
  simp only [beq_iff_eq]
  exact exists_congr fun p => and_congr_right' eq_comm

/-- Under a name that stands once, its pair is found. -/
theorem lookup_eq_some_iff_mem {pairs : List (String × β)} (distinct : (pairs.map (·.1)).Nodup)
    {name : String} {value : β} : pairs.lookup name = some value ↔ (name, value) ∈ pairs := by
  induction pairs with
  | nil => exact iff_of_false nofun List.not_mem_nil
  | cons pair rest ih =>
    obtain ⟨n, v⟩ := pair
    obtain ⟨new, distinct⟩ := List.nodup_cons.1 distinct
    rw [lookup_cons_eq, List.mem_cons, Prod.mk.injEq]
    by_cases here : name = n
    · subst here
      have other : (name, value) ∉ rest := fun mem => new (List.mem_map_of_mem (f := (·.1)) mem)
      simp [other, eq_comm]
    · simp [here, ih distinct]

/-- The order of pairs does not matter where every name stands once. -/
theorem lookup_eq_of_perm {pairs pairs' : List (String × β)} (perm : pairs'.Perm pairs)
    (distinct : (pairs.map (·.1)).Nodup) (name : String) :
    pairs'.lookup name = pairs.lookup name := by
  have distinct' : (pairs'.map (·.1)).Nodup := (perm.map _).nodup_iff.2 distinct
  refine Option.ext fun value => ?_
  rw [lookup_eq_some_iff_mem distinct, lookup_eq_some_iff_mem distinct', perm.mem_iff]

end ClientGen
