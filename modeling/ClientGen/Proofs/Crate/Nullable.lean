import ClientGen.Proofs.Crate.Types
import ClientGen.Proofs.Lists.Pointwise
import ClientGen.Proofs.Schema.Null

/-!
# Types that take `null` in both languages

A schema that takes `null` should have a Rust type that does, an optional one or that of any JSON
value. Two kinds of schemas have another type: those that name a component and are `nullable`
besides, and those that list `null` among their values beside a type of their own (`dropsNull`).

* `containsNull_lower`: where the type of a schema takes `null` from.
* `typeOfTypes_admitsNull`: which Rust types do.
* **Which Rust types take `null` where the type does** (`typeOf_admitsNull`), with a reference and
  an enumeration that lose it (`typeOf_loses_null`).
-/

namespace ClientGen

open Report (bind_result_eq_ok_iff)
open TypeExpr (unionMembers unionOf)

theorem TypeExpr.isNull_iff {t : TypeExpr} : t.isNull = true ↔ t = .null := by
  unfold isNull
  split
  · exact iff_of_true rfl rfl
  · next other => exact iff_of_false Bool.false_ne_true other

theorem TypeExpr.containsNull_iff {t : TypeExpr} :
    t.containsNull = true ↔ .null ∈ unionMembers t := by
  unfold containsNull
  split
  · rw [unionMembers, List.any_eq_true]
    simp only [isNull_iff, exists_eq_right]
  · next plain =>
    have alone : unionMembers t = [t] := by
      unfold unionMembers
      split
      · exact absurd rfl (plain _)
      · rfl
    rw [alone, isNull_iff, List.mem_singleton, eq_comm]

namespace Schema

variable {sub : Value → Lowering TypeExpr} {es : Entries} {t : TypeExpr}

/-- Of a schema that neither combines others nor lists values, only the types that it lists or
implies take `null`. -/
theorem null_mem_impliedTypes_of_lowerOpen (simple : isComposed es = false)
    (typed : (lowerOpen sub es).result = .ok t) (null : .null ∈ unionMembers t) :
    ∃ types, impliedTypes es = .ok types ∧ "null" ∈ types := by
  rw [lowerOpen, if_neg (Bool.eq_false_iff.1 simple)] at typed
  obtain ⟨types, implied, typed⟩ := bind_result_eq_ok_iff.1 typed
  rw [Report.ofText_result_eq_ok_iff] at implied
  refine ⟨types, implied, ?_⟩
  cases types with
  | nil =>
    cases typed
    cases List.mem_singleton.1 null
  | cons type rest =>
    obtain ⟨ts, each, eq⟩ := bind_result_eq_ok_iff.1 typed
    cases eq
    have plain : ∀ u ∈ ts, unionMembers u = [u] := by
      intro u mem
      obtain ⟨type, -, ok⟩ := (mem_of_eachOf each).1 mem
      exact (lowerSingle_result ok).1
    have some : ts ≠ [] := by
      rintro rfl
      cases eachOf_result_eq_ok_iff.1 each
    obtain ⟨type, mem, ok⟩ :=
      (mem_of_eachOf each).1 ((TypeExpr.mem_unionMembers_unionOf some plain).1 null)
    by_cases here : type = "null"
    · exact here ▸ mem
    · exact absurd rfl ((lowerSingle_result ok).2 here).ne_null

/-- No schema implies `null`. -/
theorem null_mem_typesOf_of_impliedTypes {types : List String}
    (implied : impliedTypes es = .ok types) (listed : "null" ∈ types) :
    ∃ words, typesOf es = .ok words ∧ "null" ∈ words := by
  cases read : typesOf es with
  | error e =>
    rw [impliedTypes, read] at implied
    cases implied
  | ok words =>
    refine ⟨words, rfl, ?_⟩
    cases words with
    | nil =>
      rcases impliedTypes_of_untyped read implied with rfl | ⟨type, ne_null, rfl⟩
      · cases listed
      · exact absurd (List.mem_singleton.1 listed).symm ne_null
    | cons word rest =>
      rw [impliedTypes, read] at implied
      cases implied
      exact listed

/-- Where the type of a schema takes `null` from. -/
theorem containsNull_lower {scope : Scope} (levels : 0 < scope.budget)
    (typed : (lower scope (.map es)).result = .ok t) :
    ∃ u, (lowerEntries (lowerWithin scope (scope.budget - 1)) scope es).result = .ok u ∧
      (t.containsNull = true ↔ (es.get "nullable").isTrue = true ∨ .null ∈ unionMembers u) := by
  obtain ⟨budget, eq⟩ := Nat.exists_eq_add_one.2 levels
  rw [lower, eq, lowerWithin] at typed
  rw [eq, Nat.add_sub_cancel]
  obtain ⟨u, inner, ended⟩ := bind_result_eq_ok_iff.1 typed
  refine ⟨u, inner, ?_⟩
  cases ended
  rw [TypeExpr.containsNull_iff]
  split
  · next nullable =>
    exact iff_of_true (TypeExpr.mem_unionMembers_unionOf_of_mem (by simp) rfl) (.inl nullable)
  · next plain => rw [or_iff_right plain]

/-- What is no mapping is any value or none. -/
theorem containsNull_lower_of_not_map {scope : Scope} {P : Value} (other : P.map? = none)
    (typed : (lower scope P).result = .ok t) : t.containsNull = false := by
  rw [lower] at typed
  generalize scope.budget = budget at typed
  cases P with
  | map es => cases other
  | bool b => cases b <;> cases budget <;> cases typed <;> rfl
  | _ => cases budget <;> cases typed <;> rfl

end Schema

namespace Crate

open Schema (Components Scope lower literalsOf isComposed isNull)

/-- Whether a type takes `null`. -/
def RustType.admitsNull (t : RustType) : Bool := t.isOption || t == .json

/-- Whether a schema type has a Rust type other than that of any JSON value. -/
def hasOwnType (es : Entries) : Option String → Bool
  | some "array" => true
  | some "object" => !(es.get "properties").truthy && (es.get "additionalProperties").isMap
  | some type => (formatsOf? type).isSome
  | none => false

/-- Whether types to choose from leave a single one with a Rust type of its own. -/
def ownTyped (es : Entries) (types : List String) : Bool :=
  match types with
  | _ :: _ :: _ => false
  | types => hasOwnType es (types.head?.or (impliedType? es))

/-- Whether a schema takes `null` and its Rust type does not: where it names a component, what it
says besides is not read, and where it lists values, only its types are. -/
def dropsNull (components : Components) : Value → Bool
  | .map es =>
    match Entries.find? "$ref" es with
    | some ref => (Entries.get "nullable" es).isTrue && (ref.str?.bind (namedBy components)).isSome
    | none =>
      !isComposed es && (literalsOf es).any isNull &&
        match (typesOf es).result with
        | .ok (listed, nullable) => !nullable && ownTyped es (typesLeft es listed)
        | .error _ => false
  | _ => false

variable {components : Components} {sub : Value → Lowering RustType} {es : Entries} {r : RustType}

/-- No scalar is any JSON value. -/
theorem scalarType_result {type : String} {format : Value}
    (typed : (scalarType type format).result = .ok r) :
    r.isOption = false ∧ (r = .json ↔ (formatsOf? type).isSome = false) := by
  rcases scalarType_cases typed with ⟨unknown, rfl⟩ | ⟨known, rfl | ⟨name, scalar, rfl⟩⟩
  · rw [unknown]
    exact ⟨rfl, iff_of_true rfl rfl⟩
  · rw [known]
    exact ⟨rfl, iff_of_false (by rintro ⟨⟩) (by rintro ⟨⟩)⟩
  · rw [known]
    refine ⟨rfl, iff_of_false (fun eq => ?_) (by rintro ⟨⟩)⟩
    rw [RustType.builtin.inj eq] at scalar
    revert scalar
    decide

theorem typeOfSingle_result {type : Option String}
    (typed : (typeOfSingle sub es type).result = .ok r) :
    r.isOption = false ∧ (r = .json ↔ hasOwnType es type = false) := by
  unfold typeOfSingle at typed
  split at typed
  case h_1 =>
    have vec : ∃ item, r = .vec item := by
      split at typed
      · obtain ⟨item, -, eq⟩ := bind_result_eq_ok_iff.1 typed
        cases eq
        exact ⟨item, rfl⟩
      · cases typed
        exact ⟨_, rfl⟩
    obtain ⟨item, rfl⟩ := vec
    exact ⟨rfl, iff_of_false (by rintro ⟨⟩) (by rintro ⟨⟩)⟩
  case h_2 =>
    rw [hasOwnType]
    split at typed
    · next absent additional =>
      obtain ⟨value, -, eq⟩ := bind_result_eq_ok_iff.1 typed
      cases eq
      rw [absent, additional]
      exact ⟨rfl, iff_of_false (by rintro ⟨⟩) (by rintro ⟨⟩)⟩
    · next other =>
      cases typed
      refine ⟨rfl, iff_of_true rfl ?_⟩
      rw [Bool.and_eq_false_iff, Bool.not_eq_false']
      by_contra both
      rw [not_or, Bool.not_eq_true, Bool.not_eq_false] at both
      obtain ⟨absent, isMap⟩ := both
      cases additional : es.get "additionalProperties" with
      | map additional' => exact other _ absent additional
      | _ =>
        rw [additional] at isMap
        cases isMap
  case h_3 type array object =>
    rw [hasOwnType]
    · exact scalarType_result typed
    · exact array
    · exact object
  case h_4 =>
    cases typed
    exact ⟨rfl, iff_of_true rfl rfl⟩

theorem isOption_toOption (t : RustType) : t.toOption.isOption = true := by
  cases t <;> rfl

theorem admitsNull_iff {t : RustType} (plain : t.isOption = false) :
    t.admitsNull = true ↔ t = .json := by
  rw [RustType.admitsNull, plain, Bool.false_or, beq_iff_eq]

theorem ownTyped_of_single {types : List String}
    (single : ∀ first second rest, types = first :: second :: rest → False) :
    ownTyped es types = hasOwnType es (types.head?.or (impliedType? es)) := by
  rcases types with _ | ⟨first, _ | ⟨second, rest⟩⟩
  · rfl
  · rfl
  · exact absurd rfl (single first second rest)

theorem typeOfTypes_admitsNull {types : List String} {nullable : Bool}
    (typed : (typeOfTypes sub es types nullable).result = .ok r) :
    r.admitsNull = true ↔ nullable = true ∨ ownTyped es types = false := by
  unfold typeOfTypes at typed
  split at typed
  · cases typed
    exact iff_of_true rfl (.inr rfl)
  · next single =>
    obtain ⟨u, inner, eq⟩ := bind_result_eq_ok_iff.1 typed
    cases eq
    obtain ⟨plain, json⟩ := typeOfSingle_result inner
    cases nullable with
    | true =>
      rw [if_pos rfl, RustType.admitsNull, isOption_toOption]
      exact iff_of_true rfl (.inl rfl)
    | false =>
      rw [if_neg Bool.false_ne_true, admitsNull_iff plain, json, or_iff_right Bool.false_ne_true,
        ownTyped_of_single single]

section Listed

variable {listed : List String} {nullable : Bool}
  (read : (typesOf es).result = .ok (listed, nullable))

include read

theorem nullable_of_isTrue (flag : (es.get "nullable").isTrue = true) : nullable = true := by
  rw [typesOf_eq] at read
  obtain ⟨types, -, eq⟩ := bind_result_eq_ok_iff.1 read
  rw [← (Prod.mk.inj (Except.ok.inj eq)).2, flag, Bool.or_true]

/-- What takes `null` by the types that it lists has an optional type. -/
theorem nullable_of_typesOf {words : List String} (read' : Schema.typesOf es = .ok words)
    (null : "null" ∈ words) : nullable = true := by
  rw [typesOf_eq] at read
  obtain ⟨types, found, eq⟩ := bind_result_eq_ok_iff.1 read
  have same : "null" ∈ types := by
    unfold Schema.typesOf at read'
    cases type : es.get "type" with
    | str s =>
      rw [type] at read' found
      cases read'
      cases found
      exact null
    | list items =>
      rw [type] at read' found
      obtain ⟨v, mem, shown⟩ := exists_of_forall₂_right (forall₂_of_mapM read') null
      cases items with
      | nil => cases mem
      | cons first rest =>
        cases found
        exact List.mem_filterMap.2 ⟨v, mem, by rw [Value.eq_null_of_shown shown]; rfl⟩
    | _ =>
      rw [type] at read'
      cases read'
      cases null
  rw [← (Prod.mk.inj (Except.ok.inj eq)).2, List.contains_iff_mem.2 same, Bool.true_or]

end Listed

/-! ### Both types -/

section Both

variable {scope : Scope} {t : TypeExpr} (levels : 0 < scope.budget)
  (lowered : (lower scope (.map es)).result = .ok t)

include levels lowered

theorem drops_of_ref {ref : Value} (found : es.find? "$ref" = some ref)
    (typed : (typeOfRef scope.components ref).result = .ok r) :
    (t.containsNull = true ∧ r.admitsNull = false) ↔
      (es.get "nullable").isTrue = true ∧
        (ref.str?.bind (namedBy scope.components)).isSome = true := by
  obtain ⟨u, inner, null⟩ := Schema.containsNull_lower levels lowered
  have apart : r.admitsNull = false ↔ (ref.str?.bind (namedBy scope.components)).isSome = true := by
    rw [typeOfRef_result typed]
    cases ref.str?.bind (namedBy scope.components) with
    | none => exact iff_of_false (by rintro ⟨⟩) (by rintro ⟨⟩)
    | some name => exact iff_of_true rfl rfl
  rw [null, apart]
  refine and_congr_left fun named => ?_
  obtain ⟨name, named⟩ := Option.isSome_iff_exists.1 named
  obtain ⟨s, text, -⟩ := Option.bind_eq_some_iff.1 named
  have reference : (es.get "$ref").str? = some s := by
    rw [Entries.get, found, Option.getD_some, text]
  rw [Schema.lowerEntries_eq, reference] at inner
  obtain ⟨u', ended, solid⟩ := Schema.lowerReference_result scope s
  rw [show u = u' from Except.ok.inj (inner.symm.trans ended), or_iff_left solid.not_null_mem]

theorem drops_of_plain (found : es.find? "$ref" = none) (simple : isComposed es = false)
    {listed : List String} {nullable : Bool}
    (read : (typesOf es).result = .ok (listed, nullable))
    (typed : (typeOfTypes sub es (typesLeft es listed) nullable).result = .ok r) :
    (t.containsNull = true ∧ r.admitsNull = false) ↔
      (literalsOf es).any isNull = true ∧ nullable = false ∧
        ownTyped es (typesLeft es listed) = true := by
  obtain ⟨u, inner, null⟩ := Schema.containsNull_lower levels lowered
  have admits := typeOfTypes_admitsNull typed
  have reference : es.get "$ref" = .null := by rw [Entries.get, found, Option.getD_none]
  rw [Schema.lowerEntries_eq, reference] at inner
  change (Schema.lowerUnreferred _ es).result = _ at inner
  have apart : r.admitsNull = false ↔
      nullable = false ∧ ownTyped es (typesLeft es listed) = true := by
    rw [← Bool.not_eq_true, admits, not_or, Bool.not_eq_true, Bool.not_eq_false]
  rw [null, apart]
  refine and_congr_left fun apart => ?_
  have plain := apart.1
  have flag : ¬(es.get "nullable").isTrue = true := fun flag => by
    rw [nullable_of_isTrue read flag] at plain
    cases plain
  rw [or_iff_right flag]
  cases literals : literalsOf es with
  | nil =>
    rw [Schema.lowerUnreferred, literals] at inner
    refine iff_of_false (fun mem => ?_) (by rintro ⟨⟩)
    obtain ⟨types, implied, listed⟩ := Schema.null_mem_impliedTypes_of_lowerOpen simple inner mem
    obtain ⟨words, read', listed⟩ := Schema.null_mem_typesOf_of_impliedTypes implied listed
    rw [nullable_of_typesOf read read' listed] at plain
    cases plain
  | cons v rest =>
    rw [Schema.lowerUnreferred, literals] at inner
    exact Schema.null_mem_lowerLiterals_iff (List.cons_ne_nil _ _) inner

end Both

/-- **Which Rust types take `null` where the type does.** Of a schema that has a type and a Rust
type, the first takes `null` and the second does not exactly if it names a component and is
`nullable`, or lists `null` among its values beside a type of its own. -/
theorem typeOf_admitsNull {scope : Scope} {P : Value} {t : TypeExpr} {r : RustType}
    (levels : 0 < scope.budget) (lowered : (lower scope P).result = .ok t)
    (typed : (typeOf scope.components P).result = .ok r) :
    (t.containsNull = true ∧ r.admitsNull = false) ↔ dropsNull scope.components P = true := by
  cases P with
  | map es =>
    rw [typeOf, deepest, typeWithin] at typed
    rw [dropsNull]
    cases found : Entries.find? "$ref" es with
    | some ref =>
      rw [typeOfEntries_of_ref found] at typed
      rw [Bool.and_eq_true]
      exact drops_of_ref levels lowered found typed
    | none =>
      cases composed : isComposed es with
      | true =>
        rw [typeOfEntries_of_composed found composed] at typed
        cases typed
        exact iff_of_false (fun both => absurd both.2 (by rintro ⟨⟩)) Bool.false_ne_true
      | false =>
        rw [typeOfEntries_of_plain found composed] at typed
        obtain ⟨⟨listed, nullable⟩, read, typed⟩ := bind_result_eq_ok_iff.1 typed
        rw [drops_of_plain levels lowered found composed read typed, read]
        simp only [Bool.not_false, Bool.true_and, Bool.and_eq_true, Bool.not_eq_true']
  | _ =>
    rw [Schema.containsNull_lower_of_not_map rfl lowered]
    exact iff_of_false (fun both => Bool.false_ne_true both.1) Bool.false_ne_true

/-- The values of an enumeration with `null` beside their type. -/
def letters : Value :=
  .map [(.str "type", .str "string"), (.str "enum", .list [.str "a", .null])]

theorem typeOf_admitsNull_of_letters :
    (lower ⟨[], 64⟩ letters).result = .ok (.union [.null, .literal "\"a\""]) ∧
      (typeOf [] letters).result = .ok (.builtin "String") ∧
      ((TypeExpr.union [.null, .literal "\"a\""]).containsNull = true ∧
        (RustType.builtin "String").admitsNull = false ↔ dropsNull [] letters = true) := by
  have lowered : (lower ⟨[], 64⟩ letters).result = .ok (.union [.null, .literal "\"a\""]) := by
    decide +kernel
  have typed : (typeOf [] letters).result = .ok (.builtin "String") := rfl
  exact ⟨lowered, typed, typeOf_admitsNull (by decide) lowered typed⟩

/-- A component that is referred to with `null` takes it in the one language and not in the
other. -/
theorem typeOf_loses_null :
    let pets : Components := [("Pet", .map [(.str "type", .str "object")])]
    let pet : Value :=
      .map [(.str "$ref", .str "#/components/schemas/Pet"), (.str "nullable", .bool true)]
    (lower ⟨pets, 64⟩ pet).result = .ok (.union [.null, .named "Pet"]) ∧
      (TypeExpr.union [.null, .named "Pet"]).containsNull = true ∧
      (typeOf pets pet).result = .ok (.model "Pet") ∧
      (RustType.model "Pet").admitsNull = false := by
  decide +kernel

end Crate

end ClientGen
