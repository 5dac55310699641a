import ClientGen.Proofs.Document.Data
import ClientGen.Proofs.Document.Normalized

/-!
# Values that normalising keeps

Normalising keeps a value exactly if no mapping in it is rewritten (`normalize_eq_self_iff`), where
each mapping is counted at least as often as it stands there (`Covers`). The count of a document
does so for all of its schemas (`covers_timesAt`) and for what stands in them (`Covers.at?`).

A rewritten mapping cannot come out as it was: it loses its `nullable`, or its `type` loses one of
the lists around a single item (`wraps`).
-/

namespace ClientGen.Document

open Value (Place Step Links)

/-! ### Counting -/

/-- Whether what stands in a value at a place is counted at least as often as it stands there. -/
def Covers (links : Links) (times : Place → Nat) (v : Value) (place : Place) : Prop :=
  ∀ target, visits links (links.origin target) v place ≤ times target

section Visits

variable (links : Links) (target : Place)

theorem visits_le_visitsOfMembers {es : Entries} {k : Key} {w : Value}
    (found : es.lookup k = some w) (place : Place) :
    visits links target w (.entry k :: place) ≤ visitsOfMembers links target es place := by
  induction es with
  | nil => cases found
  | cons e rest ih =>
    obtain ⟨k', v⟩ := e
    rw [List.lookup_cons] at found
    rw [visitsOfMembers]
    split at found
    · next same =>
      rw [beq_iff_eq.1 same, Option.some.inj found]
      omega
    · have later := ih found
      omega

theorem visits_le_visitsOfItems {items : List Value} {n : Nat} {w : Value}
    (found : items[n]? = some w) (index : Nat) (place : Place) :
    visits links target w (.item (index + n) :: place)
      ≤ visitsOfItems links target items index place := by
  induction items generalizing n index with
  | nil => cases found
  | cons v rest ih =>
    rw [visitsOfItems]
    cases n with
    | zero =>
      cases found
      rw [Nat.add_zero]
      omega
    | succ n =>
      have later := ih (n := n) found (index + 1)
      rw [Nat.add_right_comm, Nat.add_assoc] at later
      omega

theorem visits_member_le {u w : Value} {step : Step} (member : member? u step = some w)
    (place : Place) : visits links target w (step :: place) ≤ visits links target u place := by
  cases step with
  | item n =>
    cases u with
    | list items =>
      have later := visits_le_visitsOfItems links target member 0 place
      rwa [Nat.zero_add] at later
    | _ => cases member
  | entry k =>
    cases u with
    | map es =>
      have later := visits_le_visitsOfMembers links target member place
      rw [visits]
      omega
    | _ => cases member

/-- What stands at a place of a value is visited no more often than all that stands in the value. -/
theorem visits_at?_le {v w : Value} {place : Place} (found : at? v place = some w)
    (start : Place) :
    visits links target w (place ++ start) ≤ visits links target v start := by
  induction place generalizing w with
  | nil =>
    cases found
    exact Nat.le_refl _
  | cons step rest ih =>
    obtain ⟨u, before, member⟩ := Option.bind_eq_some_iff.1 found
    exact (visits_member_le links target member _).trans (ih before)

end Visits

section Covers

variable {links : Links} {times : Place → Nat} {place : Place}

theorem Covers.at? {v w : Value} {start : Place} (covers : Covers links times v start)
    (found : at? v place = some w) : Covers links times w (place ++ start) :=
  fun target => (visits_at?_le links _ found start).trans (covers target)

theorem Covers.one_le {es : Entries} (covers : Covers links times (.map es) place) :
    1 ≤ times place := by
  have counted := covers place
  rw [visits, if_pos rfl] at counted
  omega

end Covers

theorem le_foldl_add {α : Type} (f : α → Nat) (xs : List α) (n : Nat) :
    n ≤ xs.foldl (fun n x => n + f x) n ∧ ∀ x ∈ xs, f x ≤ xs.foldl (fun n x => n + f x) n := by
  induction xs generalizing n with
  | nil => exact ⟨Nat.le_refl n, nofun⟩
  | cons y rest ih =>
    obtain ⟨start, others⟩ := ih (n + f y)
    rw [List.foldl_cons, List.forall_mem_cons]
    exact ⟨by omega, by omega, others⟩

/-- The count of a document covers its schemas. -/
theorem covers_timesAt {d : Document} {x : Spot} (mem : x ∈ d.rootSpots) :
    Covers d.links d.timesAt x.value x.place := by
  intro target
  exact (le_foldl_add (fun x : Spot => visits d.links (d.links.origin target) x.value x.place)
    d.rootSpots 0).2 x mem

/-! ### Lists around a single item -/

/-- The number of lists of a single item around a value. -/
def wraps : Value → Nat
  | .list [v] => wraps v + 1
  | _ => 0

theorem wraps_of_not_singleton {v : Value} (h : isSingleton v = false) : wraps v = 0 := by
  unfold wraps
  split
  · cases h
  · rfl

theorem wraps_normalize (times : Place → Nat) (v : Value) (place : Place) :
    wraps (normalize times v place) = wraps v := by
  fun_induction wraps v generalizing place with
  | case1 v ih =>
    show wraps (.list [normalize times v (.item 0 :: place)]) = _
    rw [wraps, ih]
  | case2 v other =>
    refine wraps_of_not_singleton ?_
    rw [isSingleton_normalize, Bool.eq_false_iff]
    intro single
    obtain ⟨w, rfl⟩ := eq_of_isSingleton single
    exact other w rfl

theorem wraps_unwrap_le (n : Nat) (v : Value) : wraps (unwrap n v) ≤ wraps v := by
  induction n generalizing v with
  | zero => exact Nat.le_refl _
  | succ n ih =>
    by_cases single : isSingleton v = true
    · obtain ⟨w, rfl⟩ := eq_of_isSingleton single
      have rest := ih w
      rw [unwrap, wraps]
      omega
    · rw [unwrap_of_not_singleton (Bool.eq_false_iff.2 single)]

/-- A list around a single item is taken off, if it is counted. -/
theorem wraps_unwrapType_lt {times : Place → Nat} {place : Place} (counted : 1 ≤ times place)
    (v : Value) : wraps (unwrapType times place (.list [v])) < wraps (.list [v]) := by
  have taken : ∀ n, wraps (unwrap (n + 1) (.list [v])) < wraps (.list [v]) := by
    intro n
    have rest := wraps_unwrap_le n v
    rw [unwrap, wraps]
    omega
  obtain ⟨n, eq⟩ : ∃ n, times place = n + 1 := ⟨times place - 1, by omega⟩
  unfold unwrapType
  split
  · next w same =>
    rw [← same, eq]
    exact taken n
  · exact taken 0

/-! ### Mappings that are rewritten -/

section Rewritten

variable {times : Place → Nat} {place : Place} {es : Entries}

/-- The keys of a schema stay, unless its `nullable` becomes a member of its `type`. -/
theorem map_fst_normalized_iff :
    (normalized times es place).map (·.1) = es.map (·.1) ↔ movesNull es = false := by
  constructor
  · intro same
    rw [Bool.eq_false_iff]
    intro moves
    have there : Key.str "nullable" ∈ es.map (·.1) := by
      have found : (es.find? "nullable").isSome = true := by
        have true := isTrue_of_movesNull moves
        rw [Entries.get] at true
        cases found : es.find? "nullable" with
        | none =>
          rw [found] at true
          cases true
        | some v => rfl
      rw [find?_eq_lookup, List.lookup_isSome_iff] at found
      obtain ⟨e, mem, key⟩ := found
      exact List.mem_map.2 ⟨e, mem, (beq_iff_eq.1 key).symm⟩
    rw [← same, normalized_eq, if_pos moves, map_fst_updateEntry, List.mem_map] at there
    obtain ⟨e, mem, key⟩ := there
    rw [Entries.erase, List.mem_filter] at mem
    simp [key] at mem
  · intro stays
    rw [normalized_eq, if_neg (Bool.eq_false_iff.1 stays), map_fst_updateEntry,
      map_fst_normalizeMembers]

/-- Entries that are rewritten do not come out as they were. -/
theorem rewrites_eq_false_of_normalized_eq (counted : 1 ≤ times place)
    (same : normalized times es place = es) : rewrites es = false := by
  have stays : movesNull es = false := map_fst_normalized_iff.1 (congrArg (List.map (·.1)) same)
  rw [rewrites, stays, Bool.false_or, List.any_eq_false]
  intro e mem single
  rw [Bool.and_eq_true, beq_iff_eq] at single
  obtain ⟨key, single⟩ := single
  rw [normalized_eq, if_neg (Bool.eq_false_iff.1 stays), updateEntry_eq_map,
    normalizeMembers_eq_map, List.map_map] at same
  have kept := List.map_inj_left.1 (same.trans (List.map_id es).symm) e mem
  have type : unwrapType times place (normalize times e.2 (.entry e.1 :: place)) = e.2 := by
    have value := congrArg Prod.snd kept
    simpa [key] using value
  obtain ⟨v, eq⟩ := eq_of_isSingleton single
  have fewer := wraps_unwrapType_lt counted (normalize times v (.item 0 :: .entry e.1 :: place))
  have whole : normalize times (.list [v]) (.entry e.1 :: place) =
      .list [normalize times v (.item 0 :: .entry e.1 :: place)] := rfl
  rw [← whole, ← eq, type, wraps_normalize] at fewer
  exact absurd fewer (Nat.lt_irrefl _)

end Rewritten

/-! ### Values that are rewritten -/

section Settled

variable {links : Links} {times : Place → Nat}

mutual

theorem isSettled_of_normalize_eq : ∀ {v : Value} {place}, Covers links times v place →
    normalize times v place = v → isSettled v = true
  | .map es, place, covers, same => by
    have same : normalized times es place = es := Value.map.inj same
    have settled := rewrites_eq_false_of_normalized_eq covers.one_le same
    have inside : normalizeMembers times es place = es := by
      rwa [normalized, normalizeEntries_eq_self times
        ((rewrites_normalizeMembers times es place).trans settled)] at same
    rw [isSettled, settled, areSettledMembers_of_normalize_eq (fun target => ?_) inside]
    · rfl
    · have counted := covers target
      rw [visits] at counted
      omega
  | .list items, place, covers, same => by
    rw [isSettled]
    exact areSettled_of_normalize_eq covers (Value.list.inj same)
  | .null, _, _, _ => rfl
  | .bool _, _, _, _ => rfl
  | .int _, _, _, _ => rfl
  | .float _, _, _, _ => rfl
  | .str _, _, _, _ => rfl
  | .other _, _, _, _ => rfl
  | .pair _ _, _, _, _ => rfl
  | .set _, _, _, _ => rfl
  | .loop _, _, _, _ => rfl

theorem areSettled_of_normalize_eq : ∀ {items : List Value} {index place},
    (∀ target, visitsOfItems links (links.origin target) items index place ≤ times target) →
    normalizeItems times items index place = items → areSettled items = true
  | [], _, _, _, _ => rfl
  | v :: rest, index, place, covers, same => by
    obtain ⟨first, others⟩ := List.cons.inj same
    rw [areSettled, isSettled_of_normalize_eq (fun target => ?_) first,
      areSettled_of_normalize_eq (fun target => ?_) others]
    · rfl
    all_goals
      have counted := covers target
      rw [visitsOfItems] at counted
      omega

theorem areSettledMembers_of_normalize_eq : ∀ {es : Entries} {place},
    (∀ target, visitsOfMembers links (links.origin target) es place ≤ times target) →
    normalizeMembers times es place = es → areSettledMembers es = true
  | [], _, _, _ => rfl
  | (k, v) :: rest, place, covers, same => by
    obtain ⟨first, others⟩ := List.cons.inj same
    rw [areSettledMembers, isSettled_of_normalize_eq (fun target => ?_) (Prod.mk.inj first).2,
      areSettledMembers_of_normalize_eq (fun target => ?_) others]
    · rfl
    all_goals
      have counted := covers target
      rw [visitsOfMembers] at counted
      omega

end

/-- Normalising keeps a value exactly if no mapping in it is rewritten. -/
theorem normalize_eq_self_iff {v : Value} {place : Place} (covers : Covers links times v place) :
    normalize times v place = v ↔ isSettled v = true :=
  ⟨isSettled_of_normalize_eq covers, fun settled => normalize_eq_self times settled place⟩

end Settled

end ClientGen.Document
