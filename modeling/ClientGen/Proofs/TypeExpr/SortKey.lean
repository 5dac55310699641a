import ClientGen.Proofs.Text.Order
import ClientGen.TypeExpr.Order

/-!
# Sort keys of types

Types are sorted by a key of nested tuples: the place of the form, and then its parts. Keys are
compared part by part, which is an answer only where parts of one shape meet (`SortKey.compare?`).

* **Keys always compare** (`compare?_sortKey`): the keys of two types never meet in parts of
  different shapes, and they compare as `TypeExpr.compare` does.
* **The order is a strict total order** (`sortKey_strict_total_order`): of two types exactly one
  comes first or they are equal, coming before is transitive, and equal keys are keys of equal
  types.

Transitivity is proved on keys, which have four shapes, and carried over to the eleven forms of
types through `compare?_sortKey`.
-/

namespace ClientGen

/-- A key, or a part of one. -/
inductive SortKey where
  | number (n : Nat)
  | text (s : String)
  | flag (b : Bool)
  | tuple (parts : List SortKey)

namespace SortKey

mutual

/-- The order of two keys, if they have one: parts of different shapes do not compare. -/
def compare? : SortKey → SortKey → Option Ordering
  | number m, number n => some (TypeExpr.compareNat m n)
  | text s, text t => some (Text.compare s t)
  | flag a, flag b => some (TypeExpr.compareBool a b)
  | tuple ks, tuple ls => compareAll? ks ls
  | _, _ => none

/-- The order of the parts of two tuples. The first parts that differ decide. -/
def compareAll? : List SortKey → List SortKey → Option Ordering
  | [], [] => some .eq
  | [], _ :: _ => some .lt
  | _ :: _, [] => some .gt
  | k :: ks, l :: ls =>
    match compare? k l with
    | some .eq => compareAll? ks ls
    | decided => decided

end

/-- Tuples whose first parts compare, and whose other parts do. -/
theorem compareAll?_cons {k l : SortKey} {ks ls : List SortKey} {o p : Ordering}
    (first : compare? k l = some o) (others : compareAll? ks ls = some p) :
    compareAll? (k :: ks) (l :: ls) = some (o.then p) := by
  rw [compareAll?, first]
  cases o
  · rfl
  · exact others
  · rfl

/-- Tuples of one part compare as the parts do. -/
theorem compareAll?_single {k l : SortKey} {o : Ordering} (h : compare? k l = some o) :
    compareAll? [k] [l] = some o := by
  rw [compareAll?_cons h (p := .eq) rfl, Ordering.then_eq]

theorem compare?_tuple {ks ls : List SortKey} {o : Ordering} (h : compareAll? ks ls = some o) :
    compare? (.tuple ks) (.tuple ls) = some o := by
  rw [compare?, h]

/-! ### Keys of the same place -/

mutual

/-- A key has the same place as itself. -/
theorem compare?_self : (k : SortKey) → compare? k k = some .eq
  | number _ => by simp [compare?, TypeExpr.compareNat]
  | text _ => by simp [compare?, Text.compare_eq_iff_eq]
  | flag b => by cases b <;> rfl
  | tuple ks => by rw [compare?]; exact compareAll?_self ks

theorem compareAll?_self : (ks : List SortKey) → compareAll? ks ks = some .eq
  | [] => rfl
  | k :: ks => compareAll?_cons (compare?_self k) (compareAll?_self ks)

end

mutual

/-- Two keys of the same place are equal. -/
theorem eq_of_compare? : (k l : SortKey) → compare? k l = some .eq → k = l
  | number m, l, h => by
    cases l <;> simp [compare?, TypeExpr.compareNat_eq_iff] at h
    rw [h]
  | text s, l, h => by
    cases l <;> simp [compare?, Text.compare_eq_iff_eq] at h
    rw [h]
  | flag a, l, h => by
    cases l <;> simp [compare?, TypeExpr.compareBool_eq_iff] at h
    rw [h]
  | tuple ks, l, h => by
    cases l <;> simp only [compare?, reduceCtorEq] at h
    rw [eq_of_compareAll? ks _ h]

theorem eq_of_compareAll? : (ks ls : List SortKey) → compareAll? ks ls = some .eq → ks = ls
  | [], ls, h => by cases ls <;> simp [compareAll?] at h ⊢
  | k :: ks, [], h => by simp [compareAll?] at h
  | k :: ks, l :: ls, h => by
    rw [compareAll?] at h
    split at h
    · next first => rw [eq_of_compare? k l first, eq_of_compareAll? ks ls h]
    · next first => exact absurd h first

end

/-! ### Exchange and transitivity -/

/-- A tuple comes first by its first part, or else by the others. -/
theorem compareAll?_cons_eq_lt_iff {k l : SortKey} {ks ls : List SortKey} :
    compareAll? (k :: ks) (l :: ls) = some .lt ↔
      compare? k l = some .lt ∨ k = l ∧ compareAll? ks ls = some .lt := by
  rw [compareAll?]
  constructor
  · intro h
    split at h
    · next first => exact .inr ⟨eq_of_compare? k l first, h⟩
    · exact .inl h
  · rintro (first | ⟨rfl, others⟩)
    · rw [first]
    · rw [compare?_self]
      exact others

theorem compareNat_eq_lt_iff {m n : Nat} : TypeExpr.compareNat m n = .lt ↔ m < n := by
  unfold TypeExpr.compareNat
  split
  · simp [*]
  · split <;> simp [*]

theorem compareNat_swap (m n : Nat) :
    TypeExpr.compareNat n m = (TypeExpr.compareNat m n).swap := by
  unfold TypeExpr.compareNat
  rcases Nat.lt_trichotomy m n with less | rfl | more
  · simp [less, Nat.lt_asymm less, Nat.ne_of_gt less]
  · simp
  · simp [more, Nat.lt_asymm more, Nat.ne_of_gt more]

mutual

/-- The order of two keys, exchanged. -/
theorem compare?_swap : (k l : SortKey) → compare? l k = (compare? k l).map Ordering.swap
  | number m, l => by
    cases l <;> simp only [compare?, Option.map_none, Option.map_some, compareNat_swap m]
  | text s, l => by
    cases l <;> simp only [compare?, Option.map_none, Option.map_some, Text.compare_swap s]
  | flag a, l => by
    cases l <;> simp only [compare?, Option.map_none, Option.map_some, Option.some.injEq]
    next b => revert a b; decide
  | tuple ks, l => by
    cases l <;> simp only [compare?, Option.map_none]
    exact compareAll?_swap ks _

theorem compareAll?_swap : (ks ls : List SortKey) →
    compareAll? ls ks = (compareAll? ks ls).map Ordering.swap
  | [], ls => by cases ls <;> simp [compareAll?]
  | _ :: _, [] => by simp [compareAll?]
  | k :: ks, l :: ls => by
    rw [compareAll?, compareAll?, compare?_swap k l]
    cases places : compare? k l with
    | none => rfl
    | some o =>
      cases o with
      | eq => exact compareAll?_swap ks ls
      | lt => rfl
      | gt => rfl

end

mutual

/-- What comes before a key comes before all that the key comes before. -/
theorem compare?_trans : (k l m : SortKey) → compare? k l = some .lt → compare? l m = some .lt →
    compare? k m = some .lt
  | number a, l, m, h, h' => by
    cases l <;> simp [compare?, compareNat_eq_lt_iff] at h
    cases m <;> simp [compare?, compareNat_eq_lt_iff] at h' ⊢
    omega
  | text s, l, m, h, h' => by
    cases l <;> simp [compare?] at h
    cases m <;> simp [compare?] at h' ⊢
    exact Text.compare_trans h h'
  | flag a, l, m, h, h' => by
    cases l <;> simp [compare?] at h
    cases m <;> simp [compare?] at h' ⊢
    next b c => revert a b c; decide
  | tuple ks, l, m, h, h' => by
    cases l <;> simp only [compare?, reduceCtorEq] at h
    cases m <;> simp only [compare?, reduceCtorEq] at h' ⊢
    exact compareAll?_trans ks _ _ h h'

theorem compareAll?_trans : (ks ls ms : List SortKey) → compareAll? ks ls = some .lt →
    compareAll? ls ms = some .lt → compareAll? ks ms = some .lt
  | [], ls, ms, h, h' => by
    cases ls <;> cases ms <;> simp [compareAll?] at h h' ⊢
  | k :: ks, [], ms, h, h' => by simp [compareAll?] at h
  | k :: ks, l :: ls, [], h, h' => by simp [compareAll?] at h'
  | k :: ks, l :: ls, m :: ms, h, h' => by
    rw [compareAll?_cons_eq_lt_iff] at h h' ⊢
    rcases h with first | ⟨rfl, others⟩
    · rcases h' with first' | ⟨rfl, -⟩
      · exact .inl (compare?_trans k l m first first')
      · exact .inl first
    · rcases h' with first' | ⟨rfl, others'⟩
      · exact .inl first'
      · exact .inr ⟨rfl, compareAll?_trans ks ls ms others others'⟩

end

end SortKey

namespace TypeExpr

open SortKey

/-! ### The keys of types -/

/-- The key of a type of a form, by the keys of its parts. -/
def keyOf (t : TypeExpr) (parts : List SortKey) : SortKey := .tuple [.number t.rank, .tuple parts]

mutual

/-- What the key of a type holds behind the place of the form. -/
def payload : TypeExpr → List SortKey
  | primitive p => [.number p.rank]
  | ref name arguments => [.text name, .tuple (payloadOfList arguments)]
  | array element => [keyOf element (payload element)]
  | tuple elements => payloadOfList elements
  | object members => payloadOfMembers members
  | union members => payloadOfList members
  | inter members => payloadOfList members
  | function arguments result => [.tuple (payloadOfArguments arguments), payloadOfOption result]
  | literal s => [.text s]
  | generic name => [.text name]
  | index key value => [.text key, keyOf value (payload value)]

/-- The keys of types. -/
def payloadOfList : List TypeExpr → List SortKey
  | [] => []
  | t :: rest => keyOf t (payload t) :: payloadOfList rest

/-- The keys of properties. -/
def payloadOfMembers : List (Member TypeExpr) → List SortKey
  | [] => []
  | ⟨name, t, o, r⟩ :: rest =>
    .tuple [.text name, keyOf t (payload t), .flag o, .flag r] :: payloadOfMembers rest

/-- The keys of parameters. -/
def payloadOfArguments : List (Argument TypeExpr) → List SortKey
  | [] => []
  | ⟨name, t, o⟩ :: rest =>
    .tuple [.text name, keyOf t (payload t), .flag o] :: payloadOfArguments rest

/-- The key of a type that may be missing: an empty tuple where it is. -/
def payloadOfOption : Option TypeExpr → SortKey
  | none => .tuple []
  | some t => keyOf t (payload t)

end

/-- The key that a type is sorted by. -/
def sortKey (t : TypeExpr) : SortKey := keyOf t (payload t)

/-! ### Keys compare as types do -/

theorem compare_of_rank_ne {a b : TypeExpr} (h : a.rank ≠ b.rank) :
    compare a b = compareNat a.rank b.rank := by
  cases a <;> cases b <;> first | exact absurd rfl h | simp only [compare]

/-- Types of different forms compare by their forms, and others as their parts do. -/
theorem compare?_keyOf {a b : TypeExpr} {ks ls : List SortKey}
    (h : a.rank = b.rank → compareAll? ks ls = some (compare a b)) :
    compare? (keyOf a ks) (keyOf b ls) = some (compare a b) := by
  apply compare?_tuple
  by_cases same : a.rank = b.rank
  · have places : SortKey.compare? (.number a.rank) (.number b.rank) = some .eq := by
      rw [same, compare?_self]
    exact compareAll?_cons places (compareAll?_single (compare?_tuple (h same)))
  · rw [compare_of_rank_ne same, compareAll?, SortKey.compare?]
    cases places : compareNat a.rank b.rank with
    | eq => exact absurd (compareNat_eq_iff.1 places) same
    | lt => rfl
    | gt => rfl

mutual

/-- The keys of two types never meet in parts of different shapes, and compare as the types do. -/
theorem compare?_sortKey : (a b : TypeExpr) →
    SortKey.compare? a.sortKey b.sortKey = some (compare a b)
  | primitive p, b => compare?_keyOf fun same => by
    cases b <;> simp [rank] at same
    rw [payload, payload, compare]
    exact compareAll?_single (by rw [SortKey.compare?])
  | ref m as, b => compare?_keyOf fun same => by
    cases b <;> simp [rank] at same
    rw [payload, payload, compare]
    exact compareAll?_cons (by rw [SortKey.compare?])
      (compareAll?_single (compare?_tuple (compareAll?_payload as _)))
  | array a, b => compare?_keyOf fun same => by
    cases b <;> simp [rank] at same
    rw [payload, payload, compare]
    exact compareAll?_single (compare?_sortKey a _)
  | tuple as, b => compare?_keyOf fun same => by
    cases b <;> simp [rank] at same
    rw [payload, payload, compare]
    exact compareAll?_payload as _
  | object ms, b => compare?_keyOf fun same => by
    cases b <;> simp [rank] at same
    rw [payload, payload, compare]
    exact compareAll?_payloadOfMembers ms _
  | union as, b => compare?_keyOf fun same => by
    cases b <;> simp [rank] at same
    rw [payload, payload, compare]
    exact compareAll?_payload as _
  | inter as, b => compare?_keyOf fun same => by
    cases b <;> simp [rank] at same
    rw [payload, payload, compare]
    exact compareAll?_payload as _
  | function ps r, b => compare?_keyOf fun same => by
    cases b <;> simp [rank] at same
    rw [payload, payload, compare]
    exact compareAll?_cons (compare?_tuple (compareAll?_payloadOfArguments ps _))
      (compareAll?_single (compare?_payloadOfOption r _))
  | literal s, b => compare?_keyOf fun same => by
    cases b <;> simp [rank] at same
    rw [payload, payload, compare]
    exact compareAll?_single (by rw [SortKey.compare?])
  | generic m, b => compare?_keyOf fun same => by
    cases b <;> simp [rank] at same
    rw [payload, payload, compare]
    exact compareAll?_single (by rw [SortKey.compare?])
  | index k a, b => compare?_keyOf fun same => by
    cases b <;> simp [rank] at same
    rw [payload, payload, compare]
    exact compareAll?_cons (by rw [SortKey.compare?]) (compareAll?_single (compare?_sortKey a _))

theorem compareAll?_payload : (as bs : List TypeExpr) →
    compareAll? (payloadOfList as) (payloadOfList bs) = some (compareLists as bs)
  | [], bs => by cases bs <;> simp [payloadOfList, compareAll?, compareLists]
  | _ :: _, [] => by simp [payloadOfList, compareAll?, compareLists]
  | a :: as, b :: bs => by
    rw [payloadOfList, payloadOfList, compareLists]
    exact compareAll?_cons (compare?_sortKey a b) (compareAll?_payload as bs)

theorem compareAll?_payloadOfMembers : (ms ns : List (Member TypeExpr)) →
    compareAll? (payloadOfMembers ms) (payloadOfMembers ns) = some (compareMembers ms ns)
  | [], ns => by cases ns <;> simp [payloadOfMembers, compareAll?, compareMembers]
  | _ :: _, [] => by simp [payloadOfMembers, compareAll?, compareMembers]
  | ⟨m, a, o, r⟩ :: ms, ⟨n, b, p, s⟩ :: ns => by
    rw [payloadOfMembers, payloadOfMembers, compareMembers]
    have head : SortKey.compare? (.tuple [.text m, a.sortKey, .flag o, .flag r])
        (.tuple [.text n, b.sortKey, .flag p, .flag s]) = some ((Text.compare m n).then
          ((compare a b).then ((compareBool o p).then (compareBool r s)))) :=
      compare?_tuple (compareAll?_cons (by rw [SortKey.compare?])
        (compareAll?_cons (compare?_sortKey a b) (compareAll?_cons (by rw [SortKey.compare?])
          (compareAll?_single (by rw [SortKey.compare?])))))
    have whole := compareAll?_cons head (compareAll?_payloadOfMembers ms ns)
    rwa [Ordering.then_assoc, Ordering.then_assoc, Ordering.then_assoc] at whole

theorem compareAll?_payloadOfArguments : (ps qs : List (Argument TypeExpr)) →
    compareAll? (payloadOfArguments ps) (payloadOfArguments qs) = some (compareArguments ps qs)
  | [], qs => by cases qs <;> simp [payloadOfArguments, compareAll?, compareArguments]
  | _ :: _, [] => by simp [payloadOfArguments, compareAll?, compareArguments]
  | ⟨m, a, o⟩ :: ps, ⟨n, b, p⟩ :: qs => by
    rw [payloadOfArguments, payloadOfArguments, compareArguments]
    have head : SortKey.compare? (.tuple [.text m, a.sortKey, .flag o])
        (.tuple [.text n, b.sortKey, .flag p]) = some ((Text.compare m n).then
          ((compare a b).then (compareBool o p))) :=
      compare?_tuple (compareAll?_cons (by rw [SortKey.compare?])
        (compareAll?_cons (compare?_sortKey a b) (compareAll?_single (by rw [SortKey.compare?]))))
    have whole := compareAll?_cons head (compareAll?_payloadOfArguments ps qs)
    rwa [Ordering.then_assoc, Ordering.then_assoc] at whole

theorem compare?_payloadOfOption : (a b : Option TypeExpr) →
    SortKey.compare? (payloadOfOption a) (payloadOfOption b) = some (compareOptions a b)
  | none, none => by simp [payloadOfOption, SortKey.compare?, compareAll?, compareOptions]
  | none, some b => by
    rw [payloadOfOption, payloadOfOption, compareOptions]
    exact compare?_tuple rfl
  | some a, none => by
    rw [payloadOfOption, payloadOfOption, compareOptions]
    exact compare?_tuple rfl
  | some a, some b => by
    rw [payloadOfOption, payloadOfOption, compareOptions]
    exact compare?_sortKey a b

end

/-! ### The order of types -/

/-- A type comes before all that a type behind it comes before. -/
theorem compare_trans {a b c : TypeExpr} (h : compare a b = .lt) (h' : compare b c = .lt) :
    compare a c = .lt := by
  have keys := compare?_trans a.sortKey b.sortKey c.sortKey
    (by rw [compare?_sortKey, h]) (by rw [compare?_sortKey, h'])
  rw [compare?_sortKey] at keys
  exact Option.some.inj keys

/-- The order of two types, exchanged. -/
theorem compare_swap (a b : TypeExpr) : compare b a = (compare a b).swap := by
  have keys := compare?_swap a.sortKey b.sortKey
  rw [compare?_sortKey, compare?_sortKey] at keys
  exact Option.some.inj keys

/-- Whether the key of a type comes before that of another. -/
def Before (a b : TypeExpr) : Prop := SortKey.compare? a.sortKey b.sortKey = some .lt

theorem before_iff {a b : TypeExpr} : Before a b ↔ compare a b = .lt := by
  rw [Before, compare?_sortKey, Option.some.injEq]

/-- **Sort keys put types in one strict total order that agrees with equality.** The keys of two
types always compare, of two types exactly one comes first or they are equal, coming before is
transitive, and types with one key are equal. -/
theorem sortKey_strict_total_order :
    (∀ a b : TypeExpr, SortKey.compare? a.sortKey b.sortKey = some (compare a b)) ∧
    (∀ a b : TypeExpr,
      Before a b ∧ a ≠ b ∧ ¬Before b a ∨
      ¬Before a b ∧ a = b ∧ ¬Before b a ∨
      ¬Before a b ∧ a ≠ b ∧ Before b a) ∧
    (∀ a b c : TypeExpr, Before a b → Before b c → Before a c) ∧
    (∀ a b : TypeExpr, a.sortKey = b.sortKey → a = b) := by
  refine ⟨compare?_sortKey, fun a b => ?_, fun a b c h h' => ?_, fun a b h => ?_⟩
  · have equal := compare_eq_iff a b
    simp only [before_iff, compare_swap a b]
    cases places : compare a b <;> simp [places, ← equal]
  · rw [before_iff] at h h' ⊢
    exact compare_trans h h'
  · have same := compare?_sortKey a b
    rw [h, compare?_self, Option.some.injEq] at same
    exact (compare_eq_iff a b).1 same.symm

end TypeExpr

end ClientGen
