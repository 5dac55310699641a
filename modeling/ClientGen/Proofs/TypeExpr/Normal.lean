import ClientGen.Proofs.TypeExpr.Parts
import ClientGen.Proofs.TypeExpr.SortKey
import ClientGen.TypeExpr.Normal
import Mathlib.Data.List.Sort

/-!
# Unions and intersections as sets

What `unionOf` and `interOf` build depends on the set of members only.

* `mem_orderedSet`, `ascending_orderedSet`: an ordered set has the types of the list it was made
  from, in strictly ascending order; so it is the same for lists of the same types
  (`orderedSet_congr`).
* `unionOf_eq_of_mem_iff`, `interOf_eq_of_mem_iff`: unions and intersections do not see the order of
  the types that they are made from.
* `mem_unionMembers_unionOf`: the members of a union of types that are no unions.
* `unionOf_unionOf_of_mem`, `unionOf_unionOf_append`: what a union becomes by one more member.

A type is in normal form if every union and every intersection in it has several members, in
strictly ascending order and none of them of its own form. `unionOf` and `interOf` open one level of
nesting only; they keep the normal form because a union in normal form has no union among its
members (`normalized_unionOf`, `normalized_interOf`). Both come from one statement about a form
whose members are a set, `SetForm.normalized_ordered`.
-/

namespace ClientGen.TypeExpr

/-! ### The order on lists -/

theorem not_before_self (t : TypeExpr) : ¬Before t t := by
  rw [before_iff, (compare_eq_iff t t).2 rfl]
  decide

theorem Before.asymm {t u : TypeExpr} (h : Before t u) : ¬Before u t := by
  rw [before_iff] at h ⊢
  rw [compare_swap, h]
  decide

theorem Before.trans {t u v : TypeExpr} (h : Before t u) (h' : Before u v) : Before t v := by
  rw [before_iff] at h h' ⊢
  exact compare_trans h h'

instance : Std.Irrefl Before := ⟨not_before_self⟩

instance : Std.Antisymm Before := ⟨fun _ _ h h' => absurd h' h.asymm⟩

/-- Types in strictly ascending order. -/
def Ascending (ts : List TypeExpr) : Prop := ts.Pairwise Before

@[simp] theorem mem_insertOrdered {t u : TypeExpr} {ts : List TypeExpr} :
    u ∈ insertOrdered t ts ↔ u = t ∨ u ∈ ts := by
  induction ts with
  | nil => simp [insertOrdered]
  | cons v rest ih =>
    rw [insertOrdered]
    split
    · simp
    · next place =>
      rw [(compare_eq_iff t v).1 place]
      simp
    · simp only [List.mem_cons, ih]
      exact or_left_comm

/-- An ordered set has the types of the list that it is made from. -/
@[simp] theorem mem_orderedSet {t : TypeExpr} {ts : List TypeExpr} :
    t ∈ orderedSet ts ↔ t ∈ ts := by
  induction ts with
  | nil => simp [orderedSet]
  | cons u rest ih =>
    rw [orderedSet, List.foldr_cons, ← orderedSet, mem_insertOrdered, ih, List.mem_cons]

theorem ascending_insertOrdered {t : TypeExpr} {ts : List TypeExpr} (h : Ascending ts) :
    Ascending (insertOrdered t ts) := by
  induction ts with
  | nil => exact List.pairwise_singleton _ _
  | cons u rest ih =>
    obtain ⟨first, others⟩ := List.pairwise_cons.1 h
    rw [insertOrdered]
    split
    · next place =>
      have before : Before t u := before_iff.2 place
      refine List.pairwise_cons.2 ⟨fun v hv => ?_, h⟩
      rcases List.mem_cons.1 hv with rfl | hv
      · exact before
      · exact before.trans (first v hv)
    · exact h
    · next place =>
      have before : Before u t := by
        rw [before_iff, compare_swap, place]
        rfl
      refine List.pairwise_cons.2 ⟨fun v hv => ?_, ih others⟩
      rcases mem_insertOrdered.1 hv with rfl | hv
      · exact before
      · exact first v hv

theorem ascending_orderedSet (ts : List TypeExpr) : Ascending (orderedSet ts) := by
  induction ts with
  | nil => exact List.Pairwise.nil
  | cons t rest ih => exact ascending_insertOrdered ih

/-- Lists of the same types make the same ordered set, however the types stand and repeat. -/
theorem orderedSet_congr {ts us : List TypeExpr} (h : ∀ t, t ∈ ts ↔ t ∈ us) :
    orderedSet ts = orderedSet us := by
  refine List.Pairwise.eq_of_mem_iff (ascending_orderedSet ts) (ascending_orderedSet us) ?_
  intro t
  rw [mem_orderedSet, mem_orderedSet, h]

/-! ### Unions and intersections of the same members -/

/-- Unions of the same members are equal. -/
theorem unionOf_congr {ts us : List TypeExpr}
    (h : ∀ t, t ∈ ts.flatMap unionMembers ↔ t ∈ us.flatMap unionMembers) :
    unionOf ts = unionOf us := by
  rw [unionOf, unionOf, orderedSet_congr h]

/-- The union of types does not depend on their order, or on how often each is there. -/
theorem unionOf_eq_of_mem_iff {ts us : List TypeExpr} (h : ∀ t, t ∈ ts ↔ t ∈ us) :
    unionOf ts = unionOf us := by
  apply unionOf_congr
  simp only [List.mem_flatMap, h, implies_true]

/-- The intersection of types does not depend on their order, or on how often each is there. -/
theorem interOf_eq_of_mem_iff {ts us : List TypeExpr} (h : ∀ t, t ∈ ts ↔ t ∈ us) :
    interOf ts = interOf us := by
  have members : ∀ t, t ∈ ts.flatMap interMembers ↔ t ∈ us.flatMap interMembers := by
    simp only [List.mem_flatMap, h, implies_true]
  rw [interOf, interOf, orderedSet_congr members]

/-! ### The members of a union -/

@[simp] theorem unionMembers_union (members : List TypeExpr) :
    unionMembers (union members) = members := rfl

theorem unionOf_singleton {t : TypeExpr} (plain : unionMembers t = [t]) : unionOf [t] = t := by
  rw [unionOf, List.flatMap_singleton, plain]
  rfl

/-- A union of more than one member keeps them in ascending order; a single member stands for
itself. -/
theorem unionOf_cases (ts : List TypeExpr) :
    ts.flatMap unionMembers = [] ∧ unionOf ts = never ∨
    (∃ t, orderedSet (ts.flatMap unionMembers) = [t] ∧ unionOf ts = t) ∨
    unionOf ts = union (orderedSet (ts.flatMap unionMembers)) := by
  rw [unionOf]
  split
  · next empty =>
    refine .inl ⟨List.eq_nil_iff_forall_not_mem.2 fun t ht => ?_, rfl⟩
    rw [← mem_orderedSet, empty] at ht
    exact List.not_mem_nil ht
  · next t single => exact .inr (.inl ⟨t, single, rfl⟩)
  · exact .inr (.inr rfl)

/-- A union that a type that is no union is put into has the members of all types in it. -/
theorem mem_unionMembers_unionOf_iff {ts : List TypeExpr} {t u : TypeExpr} (h : t ∈ ts)
    (plain : unionMembers t = [t]) :
    u ∈ unionMembers (unionOf ts) ↔ u ∈ ts.flatMap unionMembers := by
  have member : t ∈ ts.flatMap unionMembers :=
    List.mem_flatMap.2 ⟨t, h, plain ▸ List.mem_singleton_self t⟩
  rcases unionOf_cases ts with ⟨empty, -⟩ | ⟨v, single, eq⟩ | eq
  · rw [empty] at member
    exact absurd member List.not_mem_nil
  · rw [← mem_orderedSet, single, List.mem_singleton] at member
    rw [eq, ← member, plain, member, ← single, mem_orderedSet]
  · rw [eq, unionMembers, mem_orderedSet]

/-- The members of a union of types that are no unions themselves are those types. -/
theorem mem_unionMembers_unionOf {ts : List TypeExpr} (nonempty : ts ≠ [])
    (plain : ∀ t ∈ ts, unionMembers t = [t]) {u : TypeExpr} :
    u ∈ unionMembers (unionOf ts) ↔ u ∈ ts := by
  obtain ⟨t, mem⟩ := List.exists_mem_of_ne_nil ts nonempty
  rw [mem_unionMembers_unionOf_iff mem (plain t mem), List.flatMap_congr plain,
    List.flatMap_singleton']

/-- A type that is no union is a member of every union that it is put into. -/
theorem mem_unionMembers_unionOf_of_mem {ts : List TypeExpr} {t : TypeExpr} (h : t ∈ ts)
    (plain : unionMembers t = [t]) : t ∈ unionMembers (unionOf ts) :=
  (mem_unionMembers_unionOf_iff h plain).2
    (List.mem_flatMap.2 ⟨t, h, plain ▸ List.mem_singleton_self t⟩)

/-- A union takes in no member that it has already. -/
theorem unionOf_unionOf_of_mem {ts : List TypeExpr} {t : TypeExpr} (plain : unionMembers t = [t])
    (h : t ∈ ts.flatMap unionMembers) : unionOf [unionOf ts, t] = unionOf ts := by
  rcases unionOf_cases ts with ⟨empty, -⟩ | ⟨u, single, eq⟩ | eq
  · rw [empty] at h
    exact absurd h List.not_mem_nil
  · rw [← mem_orderedSet, single, List.mem_singleton] at h
    rw [eq, ← h, unionOf]
    simp [plain, orderedSet, insertOrdered, (compare_eq_iff t t).2]
  · have members : ∀ u, u ∈ [unionOf ts, t].flatMap unionMembers ↔
        u ∈ ts.flatMap unionMembers := by
      intro u
      rw [eq]
      simp only [List.flatMap_cons, List.flatMap_nil, unionMembers_union, plain, List.append_nil,
        List.mem_append, mem_orderedSet, List.mem_singleton, or_iff_left_iff_imp]
      rintro rfl
      exact h
    exact unionOf_congr members

/-- A union of a union of types that are no unions and another such type. -/
theorem unionOf_unionOf_append {ts : List TypeExpr} (nonempty : ts ≠ [])
    (plain : ∀ t ∈ ts, unionMembers t = [t]) (u : TypeExpr) :
    unionOf [unionOf ts, u] = unionOf (ts ++ [u]) := by
  refine unionOf_congr fun t => ?_
  have members : ts.flatMap unionMembers = ts := by
    rw [List.flatMap_congr plain, List.flatMap_singleton']
  rw [List.flatMap_append, members, List.flatMap_cons, List.mem_append, List.mem_append,
    mem_unionMembers_unionOf nonempty plain]

/-! ### Intersections -/

/-- An intersection is one of the members that it is made of, or has none or several. -/
theorem interOf_cases (ts : List TypeExpr) :
    interOf ts = unknown ∨ interOf ts ∈ ts.flatMap interMembers ∨
      ∃ members, interOf ts = inter members := by
  rw [interOf]
  split
  · exact .inl rfl
  · next t single =>
    refine .inr (.inl ?_)
    rw [← mem_orderedSet, single]
    exact List.mem_singleton_self t
  · exact .inr (.inr ⟨_, rfl⟩)

/-! ### Types in normal form -/

/-- Whether members are as a type of the form `form` has them in its normal form. -/
def NormalMembers (form : List TypeExpr → TypeExpr) (members : List TypeExpr) : Prop :=
  2 ≤ members.length ∧ Ascending members ∧ ∀ m ∈ members, ∀ inner, m ≠ form inner

/-- Whether a union, and an intersection, has its members in normal form. -/
def IsNormal : TypeExpr → Prop
  | union members => NormalMembers union members
  | inter members => NormalMembers inter members
  | _ => True

/-- Whether all unions and intersections in a type, itself included, are in normal form. -/
def Normalized (t : TypeExpr) : Prop := Everywhere IsNormal t

/-! ### Types that are neither a union nor an intersection -/

theorem normalized_primitive (p : Primitive) : Normalized (primitive p) :=
  everywhere_of_no_children rfl trivial

theorem normalized_literal (s : String) : Normalized (literal s) :=
  everywhere_of_no_children rfl trivial

theorem normalized_named (name : String) : Normalized (named name) :=
  everywhere_of_no_children rfl trivial

theorem normalized_array {t : TypeExpr} (h : Normalized t) : Normalized (array t) :=
  everywhere_iff.2 ⟨trivial, List.forall_mem_singleton.2 h⟩

theorem normalized_tuple {ts : List TypeExpr} (h : ∀ t ∈ ts, Normalized t) :
    Normalized (tuple ts) :=
  everywhere_iff.2 ⟨trivial, h⟩

theorem normalized_index (key : String) {t : TypeExpr} (h : Normalized t) :
    Normalized (index key t) :=
  everywhere_iff.2 ⟨trivial, List.forall_mem_singleton.2 h⟩

theorem normalized_object {ms : List (Member TypeExpr)} (h : ∀ m ∈ ms, Normalized m.type) :
    Normalized (object ms) :=
  everywhere_iff.2 ⟨trivial, List.forall_mem_map.2 h⟩

/-! ### Unions and intersections -/

/-- Opened types in normal form are in normal form themselves, and so is what they make together if
there are several. -/
theorem SetForm.normalized_ordered {form : List TypeExpr → TypeExpr}
    {opened : TypeExpr → List TypeExpr} (h : SetForm form opened)
    (isNormal : ∀ ms, IsNormal (form ms) ↔ NormalMembers form ms) {ts : List TypeExpr}
    (normal : ∀ t ∈ ts, Normalized t) :
    (∀ u ∈ orderedSet (ts.flatMap opened), Normalized u) ∧
      (2 ≤ (orderedSet (ts.flatMap opened)).length →
        Normalized (form (orderedSet (ts.flatMap opened)))) := by
  have members : ∀ u ∈ orderedSet (ts.flatMap opened),
      Normalized u ∧ ∀ inner, u ≠ form inner := by
    intro u mem
    obtain ⟨t, ht, mem⟩ := List.mem_flatMap.1 (mem_orderedSet.1 mem)
    exact h.of_mem_opened (fun ms top => ((isNormal ms).1 top).2.2) (normal t ht) mem
  refine ⟨fun u mem => (members u mem).1, fun several => everywhere_iff.2 ⟨?_, ?_⟩⟩
  · rw [isNormal]
    exact ⟨several, ascending_orderedSet _, fun u mem => (members u mem).2⟩
  · rw [h.children_form]
    exact fun u mem => (members u mem).1

/-- A list that is neither empty nor a single type has several. -/
theorem two_le_length {ts : List TypeExpr} (notEmpty : ts ≠ []) (notSingle : ∀ t, ts ≠ [t]) :
    2 ≤ ts.length := by
  cases ts with
  | nil => exact absurd rfl notEmpty
  | cons t rest =>
    cases rest with
    | nil => exact absurd rfl (notSingle t)
    | cons u rest =>
      rw [List.length_cons, List.length_cons]
      omega

/-- **The union of types in normal form is in normal form.** -/
theorem normalized_unionOf {ts : List TypeExpr} (h : ∀ t ∈ ts, Normalized t) :
    Normalized (unionOf ts) := by
  obtain ⟨members, whole⟩ := setForm_union.normalized_ordered (fun _ => Iff.rfl) h
  rw [unionOf]
  split
  · exact normalized_primitive _
  · next t single => exact members t (single ▸ List.mem_singleton_self t)
  · next notEmpty notSingle => exact whole (two_le_length notEmpty notSingle)

/-- **The intersection of types in normal form is in normal form.** -/
theorem normalized_interOf {ts : List TypeExpr} (h : ∀ t ∈ ts, Normalized t) :
    Normalized (interOf ts) := by
  obtain ⟨members, whole⟩ := setForm_inter.normalized_ordered (fun _ => Iff.rfl) h
  rw [interOf]
  split
  · exact normalized_primitive _
  · next t single => exact members t (single ▸ List.mem_singleton_self t)
  · next notEmpty notSingle => exact whole (two_le_length notEmpty notSingle)

end ClientGen.TypeExpr
