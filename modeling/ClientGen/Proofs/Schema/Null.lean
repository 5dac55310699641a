import ClientGen.Proofs.Schema.Parts

/-!
# Where `null` comes from

Besides `nullable`, a schema takes `null` where its types list it and where it lists the value.

* `lowerSingle_result`, `lowerLiteral_result`, `lowerReference_result`: the type of one type, value
  or reference is no union, and is `null` for that type or value alone.
* `null_mem_lowerLiterals_iff`: a list of values takes `null` only if it is in the list.
* **A `type` that lists `null` says the same as `nullable`** (`orNull_lowerOpen`), of a schema that
  neither refers to another nor lists values, unless it has no types at all
  (`orNull_lowerOpen_ne_null`).
-/

namespace ClientGen.Schema

open Report (Matches)
open TypeExpr (unionMembers unionOf)

variable {sub : Value → Lowering TypeExpr} {es : Entries} {t : TypeExpr}

/-- A lowering that takes `null` as well. -/
def orNull (x : Lowering TypeExpr) : Lowering TypeExpr := do return unionOf [← x, .null]

theorem null_mem_orNull {x : Lowering TypeExpr} (h : (orNull x).result = .ok t) :
    .null ∈ unionMembers t := by
  obtain ⟨u, -, eq⟩ := Report.bind_result_eq_ok_iff.1 h
  cases eq
  exact TypeExpr.mem_unionMembers_unionOf_of_mem (by simp) rfl

/-! ### Single types -/

/-- A type that is neither a union nor `null`. -/
structure Solid (t : TypeExpr) : Prop where
  plain : unionMembers t = [t]
  ne_null : t ≠ .null

theorem Solid.not_null_mem (h : Solid t) : .null ∉ unionMembers t := by
  rw [h.plain, List.mem_singleton]
  exact h.ne_null.symm

theorem lowerReference_result (scope : Scope) (ref : String) :
    ∃ t, (lowerReference scope ref).result = .ok t ∧ Solid t := by
  rw [lowerReference]
  split
  · exact ⟨_, rfl, rfl, nofun⟩
  · exact ⟨.any, rfl, rfl, nofun⟩

/-- A reference does not have the type that it would have with `null`. -/
theorem not_matches_orNull_lowerReference (scope : Scope) (ref : String) :
    ¬Matches (· = ·) (orNull (lowerReference scope ref)) (lowerReference scope ref) := by
  intro same
  obtain ⟨t, ok, solid⟩ := lowerReference_result scope ref
  exact solid.not_null_mem (null_mem_orNull ((Report.matches_eq_iff.1 same t).2 ok))

theorem lowerObject_result (h : (lowerObject sub es).result = .ok t) : Solid t := by
  simp only [lowerObject, Report.bind_result_eq_ok_iff] at h
  obtain ⟨required, -, properties, -, members, -, additional, -, h⟩ := h
  split at h
  · next member rest value =>
    cases h
    rcases TypeExpr.interOf_cases [.object (member :: rest), .index "string" value] with
      eq | part | ⟨parts, eq⟩
    · rw [eq]
      exact ⟨rfl, nofun⟩
    · rw [List.flatMap_cons, List.flatMap_singleton, List.mem_append] at part
      rcases part with part | part <;> rw [List.mem_singleton.1 part] <;> exact ⟨rfl, nofun⟩
    · rw [eq]
      exact ⟨rfl, nofun⟩
  · cases h
    exact ⟨rfl, nofun⟩
  · cases h
    exact ⟨rfl, nofun⟩
  · split at h <;> cases h <;> exact ⟨rfl, nofun⟩

theorem lowerArray_result (h : (lowerArray sub es).result = .ok t) : Solid t := by
  rw [lowerArray_eq] at h
  split at h
  · obtain ⟨types, -, eq⟩ := Report.bind_result_eq_ok_iff.1 h
    cases eq
    exact ⟨rfl, nofun⟩
  · split at h
    · cases h
      exact ⟨rfl, nofun⟩
    · cases h
      exact ⟨rfl, nofun⟩
    · obtain ⟨type, -, eq⟩ := Report.bind_result_eq_ok_iff.1 h
      cases eq
      exact ⟨rfl, nofun⟩

theorem lowerSingle_null : lowerSingle sub es "null" = pure .null := rfl

theorem primitiveOf?_result {type : String} (h : primitiveOf? type = some t)
    (ne_null : type ≠ "null") : Solid t := by
  unfold primitiveOf? at h
  split at h
  case h_5 => exact absurd rfl ne_null
  case h_6 => cases h
  all_goals
    cases h
    exact ⟨rfl, nofun⟩

/-- The type of a schema of one type is no union, and is `null` for that type alone. -/
theorem lowerSingle_result {type : String} (h : (lowerSingle sub es type).result = .ok t) :
    unionMembers t = [t] ∧ (type ≠ "null" → Solid t) := by
  by_cases null : type = "null"
  · subst null
    cases h
    exact ⟨rfl, fun ne => absurd rfl ne⟩
  · have solid : Solid t := by
      unfold lowerSingle at h
      split at h
      · next u primitive =>
        cases h
        exact primitiveOf?_result primitive null
      · split at h
        · exact lowerArray_result h
        · split at h
          · exact lowerObject_result h
          · cases h
            exact ⟨rfl, nofun⟩
    exact ⟨solid.plain, fun _ => solid⟩

/-! ### Listed values -/

/-- Whether a value is `null`. -/
def isNull : Value → Bool
  | .null => true
  | _ => false

/-- Whether a value can be written as a literal type. -/
def hasText (v : Value) : Bool := (literalText v).isOk

theorem lowerLiteral_result {v : Value} (h : (lowerLiteral v).result = .ok t) :
    unionMembers t = [t] ∧ (t = .null ↔ isNull v = true) := by
  cases v with
  | null =>
    cases h
    exact ⟨rfl, iff_of_true rfl rfl⟩
  | _ =>
    obtain ⟨text, -, eq⟩ := Report.bind_result_eq_ok_iff.1 h
    cases eq
    exact ⟨rfl, iff_of_false nofun nofun⟩

theorem lowerLiteral_of_isNull {v : Value} (h : isNull v = true) :
    (lowerLiteral v).result = .ok .null := by
  cases v with
  | null => rfl
  | _ => cases h

theorem exists_lowerLiteral_iff {v : Value} :
    (∃ t, (lowerLiteral v).result = .ok t) ↔ hasText v = true := by
  have written : (∃ text, literalText v = .ok text) ↔ hasText v = true := by
    rw [hasText]
    cases literalText v <;> simp [Except.isOk, Except.toBool]
  rw [← written]
  cases v with
  | null => exact iff_of_true ⟨.null, rfl⟩ ⟨_, rfl⟩
  | _ =>
    simp only [lowerLiteral, Report.bind_result_eq_ok_iff, Report.ofText_result_eq_ok_iff]
    constructor
    · rintro ⟨-, text, eq, -⟩
      exact ⟨text, eq⟩
    · rintro ⟨text, eq⟩
      exact ⟨_, text, eq, rfl⟩

theorem exists_lowerLiterals_iff {vs : List Value} :
    (∃ t, (lowerLiterals vs).result = .ok t) ↔ vs.all hasText = true := by
  have each : (∃ ts, (eachOf lowerLiteral vs).result = .ok ts) ↔ vs.all hasText = true := by
    simp only [exists_eachOf_iff, exists_lowerLiteral_iff, List.all_eq_true]
  rw [← each]
  simp only [lowerLiterals, Report.bind_result_eq_ok_iff]
  constructor
  · rintro ⟨-, ts, eq, -⟩
    exact ⟨ts, eq⟩
  · rintro ⟨ts, eq⟩
    exact ⟨_, ts, eq, rfl⟩

/-- A list of values takes `null` only if it is in the list. -/
theorem null_mem_lowerLiterals_iff {vs : List Value} (nonempty : vs ≠ [])
    (h : (lowerLiterals vs).result = .ok t) :
    .null ∈ unionMembers t ↔ vs.any isNull = true := by
  obtain ⟨ts, each, eq⟩ := Report.bind_result_eq_ok_iff.1 h
  cases eq
  have plain : ∀ u ∈ ts, unionMembers u = [u] := by
    intro u mem
    obtain ⟨v, -, ok⟩ := (mem_of_eachOf each).1 mem
    exact (lowerLiteral_result ok).1
  have some : ts ≠ [] := by
    rintro rfl
    cases vs with
    | nil => exact nonempty rfl
    | cons v rest => cases eachOf_result_eq_ok_iff.1 each
  rw [TypeExpr.mem_unionMembers_unionOf some plain, mem_of_eachOf each, List.any_eq_true]
  constructor
  · rintro ⟨v, mem, ok⟩
    exact ⟨v, mem, (lowerLiteral_result ok).2.1 rfl⟩
  · rintro ⟨v, mem, null⟩
    exact ⟨v, mem, lowerLiteral_of_isNull null⟩

/-- A list of values with `null` takes it already. -/
theorem orNull_lowerLiterals_of_null {vs : List Value} (null : vs.any isNull = true) :
    Matches (· = ·) (orNull (lowerLiterals vs)) (lowerLiterals vs) := by
  rw [orNull, lowerLiterals, bind_assoc]
  refine .bind_of_ok fun ts each => ?_
  rw [pure_bind]
  refine .pure (TypeExpr.unionOf_unionOf_of_mem rfl ?_)
  obtain ⟨v, mem, isNull⟩ := List.any_eq_true.1 null
  have null : .null ∈ ts := (mem_of_eachOf each).2 ⟨v, mem, lowerLiteral_of_isNull isNull⟩
  exact List.mem_flatMap.2 ⟨.null, null, List.mem_singleton_self _⟩

/-- A list of values that cannot all be written has no type, with `null` or without. -/
theorem orNull_lowerLiterals_of_textless {vs : List Value} (textless : vs.all hasText = false) :
    Matches (· = ·) (orNull (lowerLiterals vs)) (lowerLiterals vs) := by
  have fails : ¬∃ t, (lowerLiterals vs).result = .ok t := by
    rw [exists_lowerLiterals_iff, textless]
    exact Bool.false_ne_true
  refine .of_ok (fun t ok => ?_) fun t ok => absurd ⟨t, ok⟩ fails
  obtain ⟨u, ok, -⟩ := Report.bind_result_eq_ok_iff.1 ok
  exact absurd ⟨u, ok⟩ fails

/-- Values without `null` do not have the type that they would have with it. -/
theorem not_matches_orNull_lowerLiterals {vs vs' : List Value} (texts : vs.all hasText = true)
    (nonempty : vs' ≠ []) (none : vs'.any isNull = false) :
    ¬Matches (· = ·) (orNull (lowerLiterals vs)) (lowerLiterals vs') := by
  intro same
  obtain ⟨u, ok⟩ := exists_lowerLiterals_iff.2 texts
  have before : (orNull (lowerLiterals vs)).result = .ok (unionOf [u, .null]) :=
    Report.bind_result_eq_ok_iff.2 ⟨u, ok, rfl⟩
  have after := (Report.matches_eq_iff.1 same _).1 before
  have null := (null_mem_lowerLiterals_iff nonempty after).1 (null_mem_orNull before)
  rw [none] at null
  cases null

/-! ### Schemas that list no values -/

theorem eachOf_append {α β : Type} (f : α → Lowering β) (as bs : List α) :
    eachOf f (as ++ bs) = do return (← eachOf f as) ++ (← eachOf f bs) := by
  induction as with
  | nil => simp [eachOf]
  | cons a rest ih => simp [eachOf, ih]

/-- Types with `null` say the same as the types and `nullable`. -/
theorem orNull_types {types types' : List String} (same : SameItems types' (types ++ ["null"]))
    (some : types ≠ []) :
    Matches (· = ·) (orNull (do return unionOf (← eachOf (lowerSingle sub es) types)))
      (do return unionOf (← eachOf (lowerSingle sub es) types')) := by
  have apart : Matches (· = ·)
      (orNull (do return unionOf (← eachOf (lowerSingle sub es) types)))
      (do return unionOf (← eachOf (lowerSingle sub es) (types ++ ["null"]))) := by
    -- A union opens unions in it, so `null` may be put in at either level.
    rw [eachOf_append, orNull, bind_assoc, bind_assoc]
    refine .bind_of_ok fun ts each => ?_
    have plain : ∀ t ∈ ts, unionMembers t = [t] := by
      intro t mem
      obtain ⟨type, -, ok⟩ := (mem_of_eachOf each).1 mem
      exact (lowerSingle_result ok).1
    have nonempty : ts ≠ [] := by
      rintro rfl
      cases types with
      | nil => exact some rfl
      | cons type rest => cases eachOf_result_eq_ok_iff.1 each
    simp only [eachOf, lowerSingle_null, pure_bind]
    exact .pure (TypeExpr.unionOf_unionOf_append nonempty plain .null)
  have together := eachOf_matches_sameItems (lowerSingle sub es) same.symm
  exact apart.trans (together.bind fun _ _ sets => .pure (TypeExpr.unionOf_eq_of_mem_iff sets))
    fun _ _ _ => Eq.trans

theorem lowerOpen_of_composed (composed : isComposed es = true) {types : List String}
    (read : typesOf es = .ok types) : lowerOpen sub es = do
      let type ← combined sub es
      return if types.contains "null" then unionOf [type, .null] else type := by
  rw [lowerOpen, if_pos composed, lowerComposition_eq, read]
  rfl

theorem lowerOpen_of_types (simple : isComposed es = false) {types : List String}
    (read : typesOf es = .ok types) (some : types ≠ []) : lowerOpen sub es = do
      return unionOf (← eachOf (lowerSingle sub es) types) := by
  rw [lowerOpen, if_neg (Bool.eq_false_iff.1 simple), impliedTypes, read]
  cases types with
  | nil => exact absurd rfl some
  | cons type rest => rfl

section Types

variable {es' : Entries} {types types' : List String} (read : typesOf es = .ok types)
  (read' : typesOf es' = .ok types') (same : SameItems types' (types ++ ["null"]))

include read read' same

/-- **A `type` with `null` says the same as `nullable`**, of a schema that combines others or has
types. -/
theorem orNull_lowerOpen (parts : SameParts sub es es')
    (h : isComposed es = true ∨ types ≠ []) :
    Matches (· = ·) (orNull (lowerOpen sub es)) (lowerOpen sub es') := by
  have null : "null" ∈ types' := (same "null").2 (by simp)
  by_cases composed : isComposed es
  · rw [lowerOpen_of_composed composed read,
      lowerOpen_of_composed (parts.isComposed.symm.trans composed) read', orNull, bind_assoc]
    refine parts.combined.bind fun t t' eq => ?_
    rw [pure_bind, List.contains_iff_mem.2 null, if_pos rfl, eq]
    refine .pure ?_
    split
    · exact TypeExpr.unionOf_unionOf_of_mem rfl (by simp [unionMembers, TypeExpr.null])
    · rfl
  · have some : types ≠ [] := h.resolve_left composed
    rw [Bool.not_eq_true] at composed
    have composed' := parts.isComposed.symm.trans composed
    rw [lowerOpen_of_types composed read some,
      lowerOpen_of_types composed' read' (List.ne_nil_of_mem null)]
    refine (orNull_types same some).trans ?_ fun _ _ _ => Eq.trans
    exact (eachOf_matches_eq (List.forall₂_same.2 fun type _ => parts.lowerSingle type)).bind
      fun _ _ eq => .pure (by rw [eq])

end Types

/-- A schema with no type but `null` takes nothing else. -/
theorem lowerOpen_null (simple : isComposed es = false) {types : List String}
    (read : typesOf es = .ok types) (same : SameItems types ["null"]) :
    (lowerOpen sub es).result = .ok .null := by
  have null : "null" ∈ types := (same "null").2 (List.mem_singleton_self _)
  rw [lowerOpen_of_types simple read (List.ne_nil_of_mem null)]
  have alone : (do return unionOf (← eachOf (lowerSingle sub es) ["null"]) : Lowering _).result =
      .ok .null := rfl
  have sets := eachOf_matches_sameItems (lowerSingle sub es) same
  refine (Report.matches_eq_iff.1 (sets.bind fun _ _ sets => .pure ?_) _).2 alone
  exact TypeExpr.unionOf_eq_of_mem_iff sets

theorem impliedTypes_of_untyped (read : typesOf es = .ok []) {types : List String}
    (h : impliedTypes es = .ok types) :
    types = [] ∨ ∃ type, type ≠ "null" ∧ types = [type] := by
  rw [impliedTypes, read] at h
  change (if _ then _ else if _ then _ else _) = _ at h
  split at h
  · cases h
    exact .inr ⟨"object", by decide, rfl⟩
  · split at h
    · cases h
      exact .inr ⟨"array", by decide, rfl⟩
    · cases h
      exact .inl rfl

/-- A schema without types takes more than `null`. -/
theorem orNull_lowerOpen_ne_null (simple : isComposed es = false) (read : typesOf es = .ok []) :
    (orNull (lowerOpen sub es)).result ≠ .ok .null := by
  intro ended
  obtain ⟨u, ok, eq⟩ := Report.bind_result_eq_ok_iff.1 ended
  have solid : Solid u := by
    rw [lowerOpen, if_neg (Bool.eq_false_iff.1 simple)] at ok
    obtain ⟨types, implied, ok⟩ := Report.bind_result_eq_ok_iff.1 ok
    rcases impliedTypes_of_untyped read (Report.ofText_result_eq_ok_iff.1 implied) with
      rfl | ⟨type, ne_null, rfl⟩
    · cases ok
      exact ⟨rfl, nofun⟩
    · obtain ⟨ts, each, eq⟩ := Report.bind_result_eq_ok_iff.1 ok
      obtain ⟨t, rest, single, none, rfl⟩ :=
        List.forall₂_cons_left_iff.1 (eachOf_result_eq_ok_iff.1 each)
      obtain ⟨plain, solid⟩ := lowerSingle_result single
      cases none
      cases eq
      rw [TypeExpr.unionOf_singleton plain]
      exact solid ne_null
  have member : u ∈ unionMembers (unionOf [u, .null]) :=
    TypeExpr.mem_unionMembers_unionOf_of_mem (by simp) solid.plain
  have null : unionOf [u, .null] = .null := Except.ok.inj eq
  rw [null] at member
  exact solid.ne_null (List.mem_singleton.1 member)

/-- A schema without types does not have the type of one with no type but `null`. -/
theorem not_matches_orNull_lowerOpen {sub' : Value → Lowering TypeExpr} {es' : Entries}
    (simple : isComposed es = false) (read : typesOf es = .ok []) (still : isComposed es' = false)
    {types : List String} (read' : typesOf es' = .ok types) (same : SameItems types ["null"]) :
    ¬Matches (· = ·) (orNull (lowerOpen sub es)) (lowerOpen sub' es') := fun equal =>
  orNull_lowerOpen_ne_null simple read
    ((Report.matches_eq_iff.1 equal .null).2 (lowerOpen_null still read' same))

end ClientGen.Schema
