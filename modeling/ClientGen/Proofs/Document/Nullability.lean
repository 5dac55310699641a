import ClientGen.Proofs.Document.Normalized
import ClientGen.Proofs.Schema.Null

/-!
# Types after normalisation

Once `nullable` is a member of `type`, a schema should have the type that it had before. Lowering
looks at `type` last, though, and not at all where a schema refers to another or lists values.

* `losesNull`: the schemas that take `null` no more.
* `lowerWithin_normalize`: the pass keeps the type of a schema in which none is one of them and no
  data is rewritten, by induction on the levels of nesting that are left.
* `lowerEntries_of_loses`: it changes the type of each one of them.
* **What the pass keeps and what it loses** (`normalize_sameType`): both for all schemas in a
  schema, with an enumeration for which it goes wrong (`nullable_enumeration_loses_null`).
-/

namespace ClientGen.Document

open Report (Matches)
open Schema

variable (times : Value.Place → Nat)

/-! ### Normalised values as parts of a schema -/

theorem sameForm_normalize (v : Value) (place : Value.Place) :
    SameForm v (normalize times v place) := by
  cases v with
  | list items => exact .lists _ _
  | map es =>
    cases es with
    | nil => exact .same _
    | cons e rest =>
      -- A schema that loses its `nullable` has a `type` left.
      have some : normalized times (e :: rest) place ≠ [] := by
        intro none
        by_cases moves : movesNull (e :: rest)
        · have type : Entries.has "type" (normalized times (e :: rest) place) =
              Entries.has "type" (e :: rest) := has_normalized times _ place (by decide)
          rw [none] at type
          rw [movesNull, ← type] at moves
          simp [Entries.has, Entries.find?] at moves
        · rw [normalized_eq, if_neg moves] at none
          cases none
      rw [normalize_map]
      obtain ⟨e', rest', eq⟩ := List.exists_cons_of_ne_nil some
      rw [eq]
      exact .maps _ _ _ _
  | _ => exact .same _

theorem isReadOnly_normalize (v : Value) (place : Value.Place) :
    isReadOnly v = isReadOnly (normalize times v place) := by
  cases v with
  | map es =>
    rw [normalize_map]
    change (Entries.get "readOnly" es).isTrue = (Entries.get "readOnly" _).isTrue
    rw [get_normalized times es place (by decide) (by decide), isTrue_normalize]
  | _ => rfl

theorem truthy_normalize (v : Value) (place : Value.Place) :
    v.truthy = (normalize times v place).truthy := by
  have form := sameForm_normalize times v place
  cases v with
  | list items =>
    cases items <;> rfl
  | map es =>
    rw [normalize_map] at form ⊢
    generalize normalized times es place = fs at form ⊢
    cases form <;> rfl
  | _ => rfl

section Parts

variable {times} {sub : Value → Lowering TypeExpr} {P : Entries → Prop}
  (below : ∀ v place, Throughout P v → Matches (· = ·) (sub v) (sub (normalize times v place)))

include below

theorem alike_normalize {v : Value} (h : Throughout P v) (place : Value.Place) :
    Alike sub v (normalize times v place) :=
  ⟨below v place h, sameForm_normalize times v place, isReadOnly_normalize times v place⟩

theorem forall₂_normalizeItems {items : List Value} (h : ∀ v ∈ items, Throughout P v) (index : Nat)
    (place : Value.Place) :
    List.Forall₂ (Alike sub) items (normalizeItems times items index place) := by
  induction items generalizing index with
  | nil => exact .nil
  | cons v rest ih =>
    obtain ⟨first, others⟩ := List.forall_mem_cons.1 h
    exact .cons (alike_normalize below first _) (ih others _)

theorem entrywise_normalizeMembers {ps : Entries} (h : ∀ p ∈ ps, Throughout P p.2)
    (place : Value.Place) :
    Entrywise (fun _ => Alike sub) ps (normalizeMembers times ps place) := by
  induction ps with
  | nil => exact .nil
  | cons p rest ih =>
    obtain ⟨first, others⟩ := List.forall_mem_cons.1 h
    exact .cons (alike_normalize below first _) (ih others)

theorem properties_normalize {v : Value} (h : ∀ ps, v = .map ps → ∀ p ∈ ps, Throughout P p.2)
    (kept : ∀ ps, v = .map ps → rewrites ps = false) (place : Value.Place) :
    Matches (Entrywise fun _ => Alike sub) (Report.ofOption (propertyEntries? v) : Lowering _)
      (Report.ofOption (propertyEntries? (normalize times v place))) := by
  cases v with
  | map ps =>
    have stays : normalize times (.map ps) place = .map (normalizeMembers times ps place) := by
      have members := rewrites_normalizeMembers times ps place
      rw [kept ps rfl] at members
      rw [normalize, normalizeEntries_eq_self times members]
    have related := entrywise_normalizeMembers below (h ps rfl) place
    rw [stays]
    generalize normalizeMembers times ps place = ps' at related ⊢
    cases related with
    | nil => exact .pure .nil
    | cons first others => exact .pure (.cons first others)
  | list items => cases items <;> exact .of_eq (Entrywise.refl fun _ => Alike.refl) rfl
  | _ => exact .of_eq (Entrywise.refl fun _ => Alike.refl) rfl

end Parts

/-- Whether the pass leaves alone what a schema holds besides schemas: its literal values, the names
that it requires, and its properties as a mapping. -/
def keepsData (es : Entries) : Bool :=
  isSettled (es.get "const") && isSettled (es.get "enum") && isSettled (es.get "required") &&
    match es.get "properties" with
    | .map ps => !rewrites ps
    | _ => true

/-- Whether a schema takes `null` by its `nullable` but no more by its `type`: where it refers to
another, where it lists values without `null`, and where its `type` lists nothing. -/
def losesNull (es : Entries) : Bool :=
  movesNull es &&
    ((es.get "$ref").str?.isSome ||
      match literalsOf es with
      | [] => !isComposed es && (wordsOf (es.get "type")).isEmpty
      | values => values.all hasText && !values.any isNull)

theorem ref_normalized (es : Entries) (place : Value.Place) :
    ((normalized times es place).get "$ref").str? = (es.get "$ref").str? := by
  rw [get_normalized times es place (by decide) (by decide), str?_normalize]

theorem literalsOf_normalized {es : Entries} (data : keepsData es = true) (place : Value.Place) :
    literalsOf (normalized times es place) = literalsOf es := by
  obtain ⟨⟨⟨const, enum⟩, -⟩, -⟩ := by
    simpa only [keepsData, Bool.and_eq_true] using data
  rw [literalsOf, literalsOf, find?_normalized times es place (by decide) (by decide),
    get_normalized times es place (by decide) (by decide), normalize_eq_self times enum]
  rw [Entries.get] at const
  cases found : es.find? "const" with
  | none => rfl
  | some v =>
    rw [found, Option.getD_some] at const
    rw [Option.map_some, normalize_eq_self times const]

section Schemas

variable {times} {sub : Value → Lowering TypeExpr} {P : Entries → Prop}
  (below : ∀ v place, Throughout P v → Matches (· = ·) (sub v) (sub (normalize times v place)))
  {es : Entries} (throughout : Throughout P (.map es)) (data : keepsData es = true)
  (place : Value.Place)

include below throughout data

/-- Normalisation keeps the parts of a schema. -/
theorem sameParts_normalized : SameParts sub es (normalized times es place) := by
  have get : ∀ {keyword}, keyword ∈ partKeywords → (normalized times es place).get keyword =
      normalize times (es.get keyword) (.entry (.str keyword) :: place) := by
    intro keyword mem
    refine get_normalized times es place ?_ ?_ <;> rintro rfl <;> revert mem <;> decide
  obtain ⟨⟨⟨const, enum⟩, required⟩, properties⟩ := by
    simpa only [keepsData, Bool.and_eq_true] using data
  constructor
  case required =>
    rw [get (by decide), normalize_eq_self times required]
    exact .of_eq (fun _ _ => rfl) rfl
  case properties =>
    rw [get (by decide)]
    refine properties_normalize below (fun ps members => throughout.get_named rfl members)
      (fun ps members => ?_) _
    rw [members] at properties
    simpa using properties
  case hasProperties =>
    rw [get (by decide)]
    exact truthy_normalize times _ _
  case additional =>
    rw [get (by decide)]
    exact alike_normalize below (throughout.get_schema rfl) _
  case items =>
    rw [get (by decide)]
    exact alike_normalize below (throughout.get_schema rfl) _
  case sequence =>
    rw [get (by decide), itemsOf_normalize]
    exact forall₂_normalizeItems below (throughout.get_items (.inl rfl)) _ _
  case alternatives =>
    intro keyword mem
    rw [get (List.mem_append_right _ mem), itemsOf_normalize]
    refine ⟨_, .refl _, forall₂_normalizeItems below (throughout.get_items (.inr ?_)) _ _⟩
    exact roleOf_alternatives mem
  case present =>
    intro keyword mem
    refine (has_normalized times es place ?_).symm
    rintro rfl
    revert mem
    decide

/-- Normalisation keeps the type of a schema whose `nullable` stays. -/
theorem lowerEntries_of_stays (scope : Scope) (typed : isTyped es = true)
    (stays : movesNull es = false) :
    Matches (· = ·) (lowerEntries sub scope es)
      (lowerEntries sub scope (normalized times es place)) := by
  obtain ⟨types, read, same⟩ := typesOf_normalized times place typed
  rw [stays, if_neg Bool.false_ne_true, List.append_nil] at same
  refine SameSchema.lowerEntries ?_ scope
  constructor
  case toSameParts => exact sameParts_normalized below throughout data place
  case ref => exact (ref_normalized times es place).symm
  case literals =>
    rw [literalsOf_normalized times data]
    exact .refl _
  case types =>
    rw [typesOf_eq typed, read]
    exact .pure same.symm

/-- Normalisation keeps the type of a schema whose `nullable` moves and is not lost. -/
theorem lowerEntries_of_moves (scope : Scope) (typed : isTyped es = true)
    (moves : movesNull es = true) (kept : losesNull es = false) :
    Matches (· = ·) (orNull (lowerEntries sub scope es))
      (lowerEntries sub scope (normalized times es place)) := by
  obtain ⟨types, read, same⟩ := typesOf_normalized times place typed
  rw [moves, if_pos rfl] at same
  rw [losesNull, moves, Bool.true_and] at kept
  rw [lowerEntries_eq, lowerEntries_eq, ref_normalized, lowerUnreferred, lowerUnreferred,
    literalsOf_normalized times data]
  cases ref : (es.get "$ref").str? with
  | some ref => simp [ref] at kept
  | none =>
    rw [ref] at kept
    cases values : literalsOf es with
    | nil =>
      rw [values] at kept
      have typed' : isComposed es = true ∨ wordsOf (es.get "type") ≠ [] := by
        rcases Bool.and_eq_false_iff.1 kept with composed | empty
        · rw [Bool.not_eq_false'] at composed
          exact .inl composed
        · exact .inr fun none => by simp [none] at empty
      exact orNull_lowerOpen (typesOf_eq typed) read same
        (sameParts_normalized below throughout data place) typed'
    | cons v rest =>
      rw [values] at kept
      rcases Bool.and_eq_false_iff.1 kept with textless | null
      · exact orNull_lowerLiterals_of_textless textless
      · rw [Bool.not_eq_false'] at null
        exact orNull_lowerLiterals_of_null null

end Schemas

/-! ### Whole schemas -/

theorem lowerWithin_of_nullable {es : Entries} (nullable : (es.get "nullable").isTrue = true)
    (scope : Scope) (budget : Nat) : lowerWithin scope (budget + 1) (.map es) =
      orNull (lowerEntries (lowerWithin scope budget) scope es) := by
  rw [lowerWithin, nullable]
  rfl

theorem lowerWithin_of_not_nullable {es : Entries} (plain : (es.get "nullable").isTrue = false)
    (scope : Scope) (budget : Nat) : lowerWithin scope (budget + 1) (.map es) =
      lowerEntries (lowerWithin scope budget) scope es := by
  rw [lowerWithin, plain]
  exact bind_pure _

theorem fallback_normalized (scope : Scope) (es : Entries) (place : Value.Place) :
    fallback scope (normalized times es place) = fallback scope es := by
  have ref : (normalized times es place).get "$ref" = normalize times (es.get "$ref") _ :=
    get_normalized times es place (by decide) (by decide)
  rw [fallback, fallback, ref]
  cases es.get "$ref" <;> rfl

/-- Whether the pass keeps what lowering reads of a schema, apart from the schemas in it. -/
def isKept (es : Entries) : Bool := isTyped es && keepsData es && !losesNull es

theorem lowerWithin_normalize (scope : Scope) (budget : Nat) {v : Value} (place : Value.Place)
    (h : Throughout (fun es => isKept es = true) v) :
    Matches (· = ·) (lowerWithin scope budget v)
      (lowerWithin scope budget (normalize times v place)) := by
  induction budget generalizing v place with
  | zero =>
    cases v with
    | map es =>
      -- Below the last level only the reference counts, and the pass keeps that.
      rw [normalize_map, lowerWithin, lowerWithin, fallback_normalized]
      exact .refl _
    | _ => exact .refl _
  | succ budget ih =>
    cases v with
    | map es =>
      obtain ⟨⟨typed, data⟩, kept⟩ := by
        simpa only [isKept, Bool.and_eq_true, Bool.not_eq_true'] using h.here
      have below : ∀ v place, Throughout (fun es => isKept es = true) v →
          Matches (· = ·) (lowerWithin scope budget v)
            (lowerWithin scope budget (normalize times v place)) := fun v place h => ih place h
      have nullable := isTrue_nullable_normalized times es place
      rw [normalize_map]
      cases moves : movesNull es with
      | true =>
        -- `nullable` is gone afterwards, so the types alone have to make up for it.
        rw [moves, Bool.not_true, Bool.and_false] at nullable
        rw [lowerWithin_of_nullable (isTrue_of_movesNull moves),
          lowerWithin_of_not_nullable nullable]
        exact lowerEntries_of_moves below h data place scope typed moves kept
      | false =>
        rw [moves, Bool.not_false, Bool.and_true] at nullable
        have same := lowerEntries_of_stays below h data place scope typed moves
        cases before : (Entries.get "nullable" es).isTrue with
        | true =>
          rw [before] at nullable
          rw [lowerWithin_of_nullable before, lowerWithin_of_nullable nullable]
          exact same.bind fun t t' eq => .pure (by rw [eq])
        | false =>
          rw [before] at nullable
          rw [lowerWithin_of_not_nullable before, lowerWithin_of_not_nullable nullable]
          exact same
    | _ => exact .refl _

/-! ### Lost `null` -/

theorem map_isNull_normalizeItems (items : List Value) (index : Nat) (place : Value.Place) :
    (normalizeItems times items index place).map isNull = items.map isNull := by
  induction items generalizing index with
  | nil => rfl
  | cons v rest ih =>
    rw [normalizeItems, List.map_cons, List.map_cons, ih]
    cases v <;> rfl

theorem map_isNull_literalsOf_normalized (es : Entries) (place : Value.Place) :
    (literalsOf (normalized times es place)).map isNull = (literalsOf es).map isNull := by
  rw [literalsOf, literalsOf, find?_normalized times es place (by decide) (by decide),
    get_normalized times es place (by decide) (by decide)]
  cases es.find? "const" with
  | some v => cases v <;> rfl
  | none =>
    rw [Option.map_none, itemsOf_normalize]
    exact map_isNull_normalizeItems times _ _ _

theorem any_isNull_literalsOf_normalized (es : Entries) (place : Value.Place) :
    (literalsOf (normalized times es place)).any isNull = (literalsOf es).any isNull := by
  have read : ∀ vs : List Value, vs.any isNull = (vs.map isNull).any id := by
    intro vs
    rw [List.any_map]
    rfl
  rw [read, map_isNull_literalsOf_normalized, ← read]

theorem isComposed_normalized (es : Entries) (place : Value.Place) :
    isComposed (normalized times es place) = isComposed es := by
  simp only [isComposed, compositionKeywords, List.any_cons, List.any_nil]
  rw [has_normalized times es place (by decide), has_normalized times es place (by decide),
    has_normalized times es place (by decide)]

/-- A schema that loses its `null` has another type after normalisation. -/
theorem lowerEntries_of_loses {sub sub' : Value → Lowering TypeExpr} {es : Entries}
    (typed : isTyped es = true) (lost : losesNull es = true) (place : Value.Place)
    (scope : Scope) :
    ¬Matches (· = ·) (orNull (lowerEntries sub scope es))
      (lowerEntries sub' scope (normalized times es place)) := by
  rw [losesNull, Bool.and_eq_true] at lost
  obtain ⟨moves, lost⟩ := lost
  rw [lowerEntries_eq, lowerEntries_eq, ref_normalized, lowerUnreferred, lowerUnreferred]
  cases ref : (es.get "$ref").str? with
  | some ref' => exact not_matches_orNull_lowerReference scope ref'
  | none =>
    have nulls := map_isNull_literalsOf_normalized times es place
    rw [ref, Option.isSome_none, Bool.false_or] at lost
    cases values : literalsOf es with
    | nil =>
      rw [values, List.map_nil, List.map_eq_nil_iff] at nulls
      rw [values, Bool.and_eq_true, Bool.not_eq_true', List.isEmpty_iff] at lost
      obtain ⟨composed, words⟩ := lost
      have read := typesOf_eq typed
      obtain ⟨types, read', same⟩ := typesOf_normalized times place typed
      rw [words] at read same
      rw [moves, if_pos rfl, List.nil_append] at same
      rw [nulls]
      have composed' := (isComposed_normalized times es place).trans composed
      exact not_matches_orNull_lowerOpen composed read composed' read' same
    | cons v rest =>
      rw [values, Bool.and_eq_true, Bool.not_eq_true'] at lost
      obtain ⟨texts, null⟩ := lost
      cases values' : literalsOf (normalized times es place) with
      | nil =>
        rw [values, values'] at nulls
        cases nulls
      | cons v' rest' =>
        refine not_matches_orNull_lowerLiterals texts (List.cons_ne_nil _ _) ?_
        rw [← values', any_isNull_literalsOf_normalized, values, null]

/-! ### The pass as a whole -/

/-- **What the pass keeps and what it loses.** Where every `type` is a text or a list of texts, the
pass keeps the type of a schema if it leaves the data in it alone and no schema in it loses its
`null`; and each schema in it that does has another type afterwards. -/
theorem normalize_sameType (S : Value) (typed : Throughout (fun es => isTyped es = true) S)
    (place : Value.Place) (scope : Scope) :
    (Throughout (fun es => keepsData es = true ∧ losesNull es = false) S →
      SameType scope (normalize times S place) S) ∧
    (0 < scope.budget → Throughout (fun es => losesNull es = true →
      ¬SameType scope (normalize times (.map es) place) (.map es)) S) := by
  constructor
  · intro kept t
    have all : Throughout (fun es => isKept es = true) S := by
      intro es mem
      obtain ⟨data, null⟩ := kept es mem
      rw [isKept, typed es mem, data, null]
      rfl
    have same := lowerWithin_normalize times scope scope.budget place all
    exact (Report.matches_eq_iff.1 same t).symm
  · intro positive es mem lost same
    obtain ⟨budget, levels⟩ : ∃ budget, scope.budget = budget + 1 :=
      Nat.exists_eq_add_one.2 positive
    have moves : movesNull es = true := by
      rw [losesNull, Bool.and_eq_true] at lost
      exact lost.1
    have plain := isTrue_nullable_normalized times es place
    rw [moves, Bool.not_true, Bool.and_false] at plain
    have differ : ¬Matches (· = ·) (lower scope (.map es))
        (lower scope (normalize times (.map es) place)) := by
      rw [lower, lower, levels, normalize_map, lowerWithin_of_nullable (isTrue_of_movesNull moves),
        lowerWithin_of_not_nullable plain]
      exact lowerEntries_of_loses times (typed es mem) lost place scope
    exact differ (Report.matches_eq_iff.2 fun t => (same t).symm)

theorem normalize_sameType_of_object :
    let tag : Value := .map [(.str "type", .list [.str "string"]), (.str "nullable", .bool true)]
    let link : Value :=
      .map [(.str "$ref", .str "#/components/schemas/Pet"), (.str "nullable", .bool true)]
    let pet : Value := .map [(.str "type", .str "object"), (.str "nullable", .bool true),
      (.str "properties", .map [(.str "tags", .map [(.str "items", tag)]), (.str "link", link)])]
    Throughout (fun es => isTyped es = true) pet ∧
      SameType ⟨[], 64⟩ (normalize (fun _ => 1) pet []) pet := by
  intro tag link pet
  have typed : ∀ es ∈ schemasIn pet, isTyped es = true := by decide +kernel
  have kept : ∀ es ∈ schemasIn pet, keepsData es = true ∧ losesNull es = false := by
    decide +kernel
  exact ⟨typed, (normalize_sameType (fun _ => 1) pet typed [] ⟨[], 64⟩).1 kept⟩

/-- An enumeration with a `type` and without `null` loses its `nullable`. -/
theorem nullable_enumeration_loses_null :
    let letter : Value := .map [(.str "type", .str "string"), (.str "enum", .list [.str "a"]),
      (.str "nullable", .bool true)]
    (lower ⟨[], 64⟩ letter).result = .ok (.union [.null, .literal "\"a\""]) ∧
      (lower ⟨[], 64⟩ (normalize (fun _ => 1) letter [])).result = .ok (.literal "\"a\"") := by
  decide +kernel

-- Data has to be left alone as well: properties with the names of keywords are taken for keywords.
example :
    let word : Value := .map [(.str "type", .str "string")]
    let named : Value := .map [(.str "type", .str "object"),
      (.str "properties", .map [(.str "nullable", .bool true), (.str "type", word)])]
    (lower ⟨[], 64⟩ (normalize (fun _ => 1) named [])).result =
      .ok (.object [⟨"type", .string, true, false⟩]) := by
  decide +kernel

end ClientGen.Document
