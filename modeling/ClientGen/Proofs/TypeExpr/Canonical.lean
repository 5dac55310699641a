import ClientGen.Proofs.TypeExpr.Normal

/-!
# The canonical type of a set

`unionOf` and `interOf` open types of their own form into the members of these, and build a type
from the set that this gives. Both are one construction (`ofMembers`), whose laws are proved for a
form in general.

* **The laws of unions and intersections** (`unionOf_interOf_canonical`): the empty set makes
  `never` or `unknown`, a single type makes itself, and several make a type of the form with these
  members in strictly ascending order. Where no type of the form holds another one, what is built
  from what was built is the same again, and a part of the types may be built first.
* A part that is opened into nothing may not (`never_of_empty_union_stays`): the type that it makes
  is a member like others.
-/

namespace ClientGen.TypeExpr

/-! ### Types made from members -/

/-- The type that members make, where `empty` is the type of no members. -/
def ofMembers (form : List TypeExpr → TypeExpr) (empty : TypeExpr) : List TypeExpr → TypeExpr
  | [] => empty
  | [t] => t
  | members => form members

theorem unionOf_eq (ts : List TypeExpr) :
    unionOf ts = ofMembers union never (orderedSet (ts.flatMap unionMembers)) := rfl

theorem interOf_eq (ts : List TypeExpr) :
    interOf ts = ofMembers inter unknown (orderedSet (ts.flatMap interMembers)) := rfl

theorem ofMembers_of_two_le {form : List TypeExpr → TypeExpr} {empty : TypeExpr}
    {members : List TypeExpr} (several : 2 ≤ members.length) :
    ofMembers form empty members = form members := by
  match members, several with
  | _ :: _ :: _, _ => rfl

/-- A list has no member, a single one or two different ones. -/
theorem members_cases (ts : List TypeExpr) :
    ts = [] ∨ (∃ t, ∀ u, u ∈ ts ↔ u = t) ∨ ∃ t ∈ ts, ∃ u ∈ ts, t ≠ u := by
  cases ts with
  | nil => exact .inl rfl
  | cons t rest =>
    by_cases several : ∃ u ∈ rest, t ≠ u
    · obtain ⟨u, mem, other⟩ := several
      exact .inr (.inr ⟨t, List.mem_cons_self, u, List.mem_cons_of_mem t mem, other⟩)
    · have same : ∀ u ∈ rest, t = u := by simpa using several
      refine .inr (.inl ⟨t, fun u => ⟨fun mem => ?_, fun eq => eq ▸ List.mem_cons_self⟩⟩)
      rcases List.mem_cons.1 mem with eq | mem
      · exact eq
      · exact (same u mem).symm

theorem orderedSet_eq_nil_iff {ts : List TypeExpr} : orderedSet ts = [] ↔ ts = [] := by
  simp only [List.eq_nil_iff_forall_not_mem, mem_orderedSet]

theorem orderedSet_of_single {ts : List TypeExpr} {t : TypeExpr} (only : ∀ u, u ∈ ts ↔ u = t) :
    orderedSet ts = [t] := by
  have same : orderedSet ts = orderedSet [t] :=
    orderedSet_congr fun u => by rw [only, List.mem_singleton]
  rw [same]
  rfl

theorem two_le_orderedSet {ts : List TypeExpr} {t u : TypeExpr} (first : t ∈ ts) (second : u ∈ ts)
    (other : t ≠ u) : 2 ≤ (orderedSet ts).length := by
  apply two_le_length
  · intro none
    rw [orderedSet_eq_nil_iff.1 none] at first
    exact List.not_mem_nil first
  · intro v single
    rw [← mem_orderedSet, single, List.mem_singleton] at first second
    exact other (first.trans second.symm)

/-! ### The laws of a form -/

/-- Whether no type of a form in a list holds another type of the form. -/
def HoldsNoForm (form : List TypeExpr → TypeExpr) (ts : List TypeExpr) : Prop :=
  ∀ ms, form ms ∈ ts → ∀ m ∈ ms, ∀ inner, m ≠ form inner

/-- The laws of building a type from the set that types are opened into. -/
structure BuildsCanonical (form : List TypeExpr → TypeExpr) (opened : TypeExpr → List TypeExpr)
    (empty : TypeExpr) (build : List TypeExpr → TypeExpr) : Prop where
  /-- Only the set counts: not the order, the repetition or the grouping of its members. -/
  congr : ∀ ts us, (∀ t, t ∈ ts.flatMap opened ↔ t ∈ us.flatMap opened) → build ts = build us
  of_none : ∀ ts, ts.flatMap opened = [] → build ts = empty
  of_single : ∀ ts t, (∀ u, u ∈ ts.flatMap opened ↔ u = t) → build ts = t
  of_several : ∀ ts, (∃ t ∈ ts.flatMap opened, ∃ u ∈ ts.flatMap opened, t ≠ u) →
    ∃ ms, build ts = form ms ∧ Ascending ms ∧ ∀ t, t ∈ ms ↔ t ∈ ts.flatMap opened
  again : ∀ ts, HoldsNoForm form ts → build [build ts] = build ts
  /-- Some types may be built first, unless they are opened into nothing and the type that this
  makes is new among the others. -/
  part : ∀ ts us, HoldsNoForm form ts →
    (build (build ts :: us) = build (ts ++ us) ↔
      ts.flatMap opened ≠ [] ∨ us.flatMap opened = [] ∨ empty ∈ us.flatMap opened)

section Laws

variable {form : List TypeExpr → TypeExpr} {opened : TypeExpr → List TypeExpr} {empty : TypeExpr}
  {ts : List TypeExpr} {t : TypeExpr}

/-- The type that types make of the set that they are opened into. -/
def buildOf (form : List TypeExpr → TypeExpr) (opened : TypeExpr → List TypeExpr)
    (empty : TypeExpr) (ts : List TypeExpr) : TypeExpr :=
  ofMembers form empty (orderedSet (ts.flatMap opened))

theorem buildOf_congr {us : List TypeExpr}
    (same : ∀ t, t ∈ ts.flatMap opened ↔ t ∈ us.flatMap opened) :
    buildOf form opened empty ts = buildOf form opened empty us := by
  rw [buildOf, buildOf, orderedSet_congr same]

theorem buildOf_of_none (none : ts.flatMap opened = []) :
    buildOf form opened empty ts = empty := by
  rw [buildOf, none]
  rfl

theorem buildOf_of_single (only : ∀ u, u ∈ ts.flatMap opened ↔ u = t) :
    buildOf form opened empty ts = t := by
  rw [buildOf, orderedSet_of_single only]
  rfl

theorem buildOf_of_several (several : ∃ t ∈ ts.flatMap opened, ∃ u ∈ ts.flatMap opened, t ≠ u) :
    buildOf form opened empty ts = form (orderedSet (ts.flatMap opened)) := by
  obtain ⟨t, first, u, second, other⟩ := several
  exact ofMembers_of_two_le (two_le_orderedSet first second other)

variable (h : SetForm form opened)

include h

/-- What types are opened into is not opened any further, unless one of them holds a type of the
form. -/
theorem opened_of_holdsNoForm (flat : HoldsNoForm form ts) (mem : t ∈ ts.flatMap opened) :
    opened t = [t] := by
  obtain ⟨u, listed, mem⟩ := List.mem_flatMap.1 mem
  apply h.opened_other
  rcases h.form_or_other u with ⟨ms, rfl, opens⟩ | ⟨other, opens⟩
  · rw [opens] at mem
    exact flat ms listed t mem
  · rw [opens, List.mem_singleton] at mem
    rw [mem]
    exact other

/-- What is built from some types is opened into what they are opened into. -/
theorem mem_opened_buildOf (flat : HoldsNoForm form ts) (some : ts.flatMap opened ≠ []) :
    t ∈ opened (buildOf form opened empty ts) ↔ t ∈ ts.flatMap opened := by
  rcases members_cases (ts.flatMap opened) with none | ⟨u, only⟩ | several
  · exact absurd none some
  · rw [buildOf_of_single only, opened_of_holdsNoForm h flat ((only u).2 rfl), List.mem_singleton,
      only]
  · rw [buildOf_of_several several, h.opened_form, mem_orderedSet]

/-- A type of the form is none of its own members. -/
theorem form_ne_of_mem {ms : List TypeExpr} (mem : t ∈ ms) : form ms ≠ t := by
  intro same
  have child : t ∈ (form ms).children := by rwa [h.children_form]
  have smaller := sizeOf_lt_of_mem_children child
  rw [same] at smaller
  exact Nat.lt_irrefl _ smaller

variable (emptyOther : ∀ ms, empty ≠ form ms)

include emptyOther

theorem buildOf_again (flat : HoldsNoForm form ts) :
    buildOf form opened empty [buildOf form opened empty ts] = buildOf form opened empty ts := by
  by_cases none : ts.flatMap opened = []
  · rw [buildOf_of_none none]
    apply buildOf_of_single
    simp [h.opened_other empty emptyOther]
  · apply buildOf_congr
    intro t
    rw [List.flatMap_singleton, mem_opened_buildOf h flat none]

/-- The type of no members is a member like others where it is put to some types. -/
theorem buildOf_cons_empty_iff (us : List TypeExpr) :
    buildOf form opened empty (empty :: us) = buildOf form opened empty us ↔
      us.flatMap opened = [] ∨ empty ∈ us.flatMap opened := by
  have members : ∀ t, t ∈ (empty :: us).flatMap opened ↔ t = empty ∨ t ∈ us.flatMap opened := by
    simp [h.opened_other empty emptyOther]
  constructor
  · intro same
    by_contra neither
    rw [not_or] at neither
    obtain ⟨some, new⟩ := neither
    obtain ⟨t, mem⟩ := List.exists_mem_of_ne_nil _ some
    have several : ∃ t ∈ (empty :: us).flatMap opened, ∃ u ∈ (empty :: us).flatMap opened, t ≠ u :=
      ⟨empty, (members empty).2 (.inl rfl), t, (members t).2 (.inr mem),
        fun eq => new (eq ▸ mem)⟩
    rw [buildOf_of_several several] at same
    have listed : ∀ u ∈ us.flatMap opened, u ∈ orderedSet ((empty :: us).flatMap opened) :=
      fun u mem => mem_orderedSet.2 ((members u).2 (.inr mem))
    rcases members_cases (us.flatMap opened) with none | ⟨u, only⟩ | several
    · exact some none
    · rw [buildOf_of_single only] at same
      exact form_ne_of_mem h (listed u ((only u).2 rfl)) same
    · rw [buildOf_of_several several] at same
      have lists := congrArg opened same
      rw [h.opened_form, h.opened_form] at lists
      have here : empty ∈ orderedSet ((empty :: us).flatMap opened) :=
        mem_orderedSet.2 ((members empty).2 (.inl rfl))
      rw [lists, mem_orderedSet] at here
      exact new here
  · rintro (none | old)
    · rw [buildOf_of_none none]
      apply buildOf_of_single
      intro u
      rw [members, none]
      simp
    · apply buildOf_congr
      intro t
      rw [members, or_iff_right_iff_imp]
      rintro rfl
      exact old

theorem buildOf_part_iff (flat : HoldsNoForm form ts) (us : List TypeExpr) :
    buildOf form opened empty (buildOf form opened empty ts :: us) =
        buildOf form opened empty (ts ++ us) ↔
      ts.flatMap opened ≠ [] ∨ us.flatMap opened = [] ∨ empty ∈ us.flatMap opened := by
  by_cases none : ts.flatMap opened = []
  · have others : buildOf form opened empty (ts ++ us) = buildOf form opened empty us := by
      rw [buildOf, buildOf, List.flatMap_append, none, List.nil_append]
    rw [others, buildOf_of_none none, buildOf_cons_empty_iff h emptyOther, none]
    simp
  · refine iff_of_true (buildOf_congr fun t => ?_) (.inl none)
    rw [List.flatMap_cons, List.flatMap_append, List.mem_append, List.mem_append,
      mem_opened_buildOf h flat none]

theorem buildsCanonical : BuildsCanonical form opened empty (buildOf form opened empty) where
  congr _ _ := buildOf_congr
  of_none _ := buildOf_of_none
  of_single _ _ := buildOf_of_single
  of_several _ several :=
    ⟨_, buildOf_of_several several, ascending_orderedSet _, fun _ => mem_orderedSet⟩
  again _ := buildOf_again h emptyOther
  part _ us flat := buildOf_part_iff h emptyOther flat us

end Laws

/-- **Unions and intersections are the canonical types of sets.** -/
theorem unionOf_interOf_canonical :
    BuildsCanonical union unionMembers never unionOf ∧
      BuildsCanonical inter interMembers unknown interOf :=
  ⟨buildsCanonical setForm_union nofun, buildsCanonical setForm_inter nofun⟩

/-- The empty union makes `never`, which stays a member where more is put to it. -/
theorem never_of_empty_union_stays :
    HoldsNoForm union [union []] ∧ HoldsNoForm union [string] ∧
      unionOf (unionOf [union []] :: [string]) ≠ unionOf ([union []] ++ [string]) := by
  have flat : HoldsNoForm union [union []] := by
    intro ms mem m inside
    cases List.mem_singleton.1 mem
    exact absurd inside List.not_mem_nil
  have plain : HoldsNoForm union [string] := by
    intro ms mem
    cases List.mem_singleton.1 mem
  have other : ∀ ms, never ≠ union ms := nofun
  refine ⟨flat, plain, fun same => ?_⟩
  rcases (buildOf_part_iff setForm_union other flat [string]).1 same with some | none | old
  · exact some rfl
  · cases none
  · cases List.mem_singleton.1 old

end ClientGen.TypeExpr
