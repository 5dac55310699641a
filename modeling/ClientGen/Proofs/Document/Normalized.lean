import ClientGen.Document.Passes
import ClientGen.Proofs.Schema.Parts

/-!
# Normalised values

What turning `nullable` into a member of `type` does to a value, keyword by keyword.

* `normalize_eq_self`: a value stays as it is where no mapping in it is rewritten (`isSettled`).
* `get_normalized`: all values of a schema but `type` and `nullable` are normalised where they
  stand.
* `isTrue_nullable_normalized`, `typesOf_normalized`: where the one says `null` no more, the other
  does.
-/

namespace ClientGen.Document

open Schema (SameItems itemsOf)

/-! ### What is rewritten -/

/-- Whether `nullable` of a schema becomes a member of its `type`. -/
def movesNull (es : Entries) : Bool := (es.get "nullable").isTrue && es.has "type"

theorem isTrue_of_movesNull {es : Entries} (h : movesNull es = true) :
    (es.get "nullable").isTrue = true := by
  rw [movesNull, Bool.and_eq_true] at h
  exact h.1

/-- Whether a value is a list of one item. -/
def isSingleton : Value → Bool
  | .list [_] => true
  | _ => false

theorem eq_of_isSingleton {v : Value} (h : isSingleton v = true) : ∃ w, v = .list [w] := by
  unfold isSingleton at h
  split at h
  · exact ⟨_, rfl⟩
  · cases h

/-- Whether the entries of a mapping are changed, apart from the values in them. -/
def rewrites (es : Entries) : Bool :=
  movesNull es || es.any fun e => e.1 == .str "type" && isSingleton e.2

mutual

/-- Whether no mapping in a value is rewritten. -/
def isSettled : Value → Bool
  | .map es => !rewrites es && areSettledMembers es
  | .list items => areSettled items
  | _ => true

/-- Whether no mapping in the items of a list is rewritten. -/
def areSettled : List Value → Bool
  | [] => true
  | v :: rest => isSettled v && areSettled rest

/-- Whether no mapping in the values of a mapping is rewritten. -/
def areSettledMembers : List (Key × Value) → Bool
  | [] => true
  | (_, v) :: rest => isSettled v && areSettledMembers rest

end

theorem unwrap_of_not_singleton {v : Value} (h : isSingleton v = false) (n : Nat) :
    unwrap n v = v := by
  unfold unwrap
  split
  · cases h
  · rfl

theorem updateEntry_eq_map (name : String) (f : Value → Value) (es : Entries) :
    updateEntry name f es = es.map fun e => (e.1, if e.1 = .str name then f e.2 else e.2) := by
  rw [updateEntry]
  refine List.map_congr_left fun e _ => ?_
  split <;> rfl

theorem map_fst_updateEntry (name : String) (f : Value → Value) (es : Entries) :
    (updateEntry name f es).map (·.1) = es.map (·.1) := by
  rw [updateEntry_eq_map, List.map_map]
  rfl

section Place

variable (times : Value.Place → Nat)

theorem normalizeMembers_eq_map (es : Entries) (place : Value.Place) :
    normalizeMembers times es place =
      es.map fun e => (e.1, normalize times e.2 (.entry e.1 :: place)) := by
  induction es with
  | nil => rfl
  | cons e rest ih => rw [normalizeMembers, ih, List.map_cons]

theorem map_fst_normalizeMembers (es : Entries) (place : Value.Place) :
    (normalizeMembers times es place).map (·.1) = es.map (·.1) := by
  rw [normalizeMembers_eq_map, List.map_map]
  rfl

theorem unwrapType_of_not_singleton {v : Value} (h : isSingleton v = false) (place : Value.Place) :
    unwrapType times place v = v := by
  unfold unwrapType
  split
  · cases h
  · exact unwrap_of_not_singleton h 1

theorem updateEntry_eq_self {name : String} {f : Value → Value} {es : Entries}
    (h : ∀ e ∈ es, e.1 = .str name → f e.2 = e.2) : updateEntry name f es = es := by
  rw [updateEntry]
  refine (List.map_congr_left fun e mem => ?_).trans (List.map_id es)
  split
  · next key => rw [h e mem key, id]
  · rfl

theorem normalizeEntries_eq_self {es : Entries} (h : rewrites es = false) (place : Value.Place) :
    normalizeEntries times place es = es := by
  rw [rewrites, Bool.or_eq_false_iff] at h
  obtain ⟨stays, several⟩ := h
  rw [normalizeEntries, ← movesNull, stays, if_neg Bool.false_ne_true]
  refine updateEntry_eq_self fun e mem key => unwrapType_of_not_singleton times ?_ place
  have single := List.any_eq_false.1 several e mem
  rw [key] at single
  simpa using single

mutual

/-- A value in which nothing is rewritten stays as it is. -/
theorem normalize_eq_self : ∀ {v : Value}, isSettled v = true → ∀ place,
    normalize times v place = v
  | .map es, h, place => by
    rw [isSettled, Bool.and_eq_true, Bool.not_eq_true'] at h
    rw [normalize, normalizeMembers_eq_self h.2, normalizeEntries_eq_self times h.1]
  | .list items, h, place => by
    rw [isSettled] at h
    rw [normalize, normalizeItems_eq_self h]
  | .null, _, _ => rfl
  | .bool _, _, _ => rfl
  | .int _, _, _ => rfl
  | .float _, _, _ => rfl
  | .str _, _, _ => rfl
  | .other _, _, _ => rfl
  | .pair _ _, _, _ => rfl
  | .set _, _, _ => rfl
  | .loop _, _, _ => rfl

theorem normalizeItems_eq_self : ∀ {items : List Value}, areSettled items = true →
    ∀ index place, normalizeItems times items index place = items
  | [], _, _, _ => rfl
  | v :: rest, h, index, place => by
    rw [areSettled, Bool.and_eq_true] at h
    rw [normalizeItems, normalize_eq_self h.1, normalizeItems_eq_self h.2]

theorem normalizeMembers_eq_self : ∀ {es : Entries}, areSettledMembers es = true →
    ∀ place, normalizeMembers times es place = es
  | [], _, _ => rfl
  | (k, v) :: rest, h, place => by
    rw [areSettledMembers, Bool.and_eq_true] at h
    rw [normalizeMembers, normalize_eq_self h.1, normalizeMembers_eq_self h.2]

end

/-! ### Form -/

theorem isTrue_normalize (v : Value) (place : Value.Place) :
    (normalize times v place).isTrue = v.isTrue := by
  cases v <;> rfl

theorem str?_normalize (v : Value) (place : Value.Place) :
    (normalize times v place).str? = v.str? := by
  cases v <;> rfl

theorem itemsOf_normalize (v : Value) (place : Value.Place) :
    itemsOf (normalize times v place) = normalizeItems times (itemsOf v) 0 place := by
  cases v <;> rfl

/-! ### Looking up keywords -/

theorem find?_updateEntry (name : String) (f : Value → Value) (es : Entries) (other : String) :
    (updateEntry name f es).find? other =
      if other = name then (es.find? other).map f else es.find? other := by
  induction es with
  | nil => simp [updateEntry, Entries.find?]
  | cons e rest ih =>
    rw [updateEntry, List.map_cons, ← updateEntry]
    by_cases here : e.1 = .str name
    · rw [if_pos here, Entries.find?, Entries.find?, ih]
      by_cases same : other = name
      · subst same
        simp [here]
      · have ne : e.1 ≠ .str other := by
          rw [here]
          exact fun eq => same (Key.str.inj eq).symm
        simp [ne, same]
    · rw [if_neg here, Entries.find?, Entries.find?, ih]
      by_cases same : other = name
      · subst same
        simp [here]
      · simp [same]

theorem find?_erase (name : String) (es : Entries) (other : String) :
    (es.erase name).find? other = if other = name then none else es.find? other := by
  induction es with
  | nil => simp [Entries.erase, Entries.find?]
  | cons e rest ih =>
    rw [Entries.erase, List.filter_cons]
    by_cases here : e.1 = .str name
    · rw [if_neg (by simpa using here), ← Entries.erase, ih]
      by_cases same : other = name
      · rw [if_pos same, if_pos same]
      · have ne : e.1 ≠ .str other := by
          rw [here]
          exact fun eq => same (Key.str.inj eq).symm
        rw [Entries.find?, if_neg ne]
    · rw [if_pos (by simpa using here), ← Entries.erase, Entries.find?, Entries.find?, ih]
      by_cases same : other = name
      · subst same
        simp [here]
      · simp [same]

theorem find?_normalizeMembers (es : Entries) (place : Value.Place) (name : String) :
    Entries.find? name (normalizeMembers times es place) =
      (es.find? name).map fun v => normalize times v (.entry (.str name) :: place) := by
  induction es with
  | nil => rfl
  | cons e rest ih =>
    obtain ⟨k, v⟩ := e
    rw [normalizeMembers, Entries.find?, Entries.find?, ih]
    split
    · next key =>
      subst key
      rfl
    · rfl

theorem get_normalizeMembers (es : Entries) (place : Value.Place) (name : String) :
    Entries.get name (normalizeMembers times es place) =
      normalize times (es.get name) (.entry (.str name) :: place) := by
  rw [Entries.get, Entries.get, find?_normalizeMembers]
  cases es.find? name <;> rfl

theorem has_normalizeMembers (es : Entries) (place : Value.Place) (name : String) :
    Entries.has name (normalizeMembers times es place) = es.has name := by
  rw [Entries.has, Entries.has, find?_normalizeMembers, Option.isSome_map]

theorem movesNull_normalizeMembers (es : Entries) (place : Value.Place) :
    movesNull (normalizeMembers times es place) = movesNull es := by
  rw [movesNull, movesNull, get_normalizeMembers, isTrue_normalize, has_normalizeMembers]

theorem isSingleton_normalize (v : Value) (place : Value.Place) :
    isSingleton (normalize times v place) = isSingleton v := by
  cases v with
  | list items =>
    cases items with
    | nil => rfl
    | cons v rest => cases rest <;> rfl
  | _ => rfl

theorem rewrites_normalizeMembers (es : Entries) (place : Value.Place) :
    rewrites (normalizeMembers times es place) = rewrites es := by
  rw [rewrites, rewrites, movesNull_normalizeMembers]
  congr 1
  induction es with
  | nil => rfl
  | cons e rest ih =>
    obtain ⟨k, v⟩ := e
    rw [normalizeMembers, List.any_cons, List.any_cons, isSingleton_normalize, ih]

/-- The entries of a schema after normalisation. -/
def normalized (es : Entries) (place : Value.Place) : Entries :=
  normalizeEntries times place (normalizeMembers times es place)

theorem normalize_map (es : Entries) (place : Value.Place) :
    normalize times (.map es) place = .map (normalized times es place) := rfl

theorem normalized_eq (es : Entries) (place : Value.Place) : normalized times es place =
    if movesNull es then
      updateEntry "type" (fun v => unwrapType times place (admitNull v))
        (Entries.erase "nullable" (normalizeMembers times es place))
    else updateEntry "type" (unwrapType times place) (normalizeMembers times es place) := by
  rw [normalized, normalizeEntries, ← movesNull, movesNull_normalizeMembers]

theorem find?_normalized (es : Entries) (place : Value.Place) {name : String}
    (type : name ≠ "type") (nullable : name ≠ "nullable") :
    (normalized times es place).find? name =
      (es.find? name).map fun v => normalize times v (.entry (.str name) :: place) := by
  rw [normalized_eq]
  split
  · rw [find?_updateEntry, if_neg type, find?_erase, if_neg nullable, find?_normalizeMembers]
  · rw [find?_updateEntry, if_neg type, find?_normalizeMembers]

/-- All values of a schema but `type` and `nullable` are normalised where they stand. -/
theorem get_normalized (es : Entries) (place : Value.Place) {name : String}
    (type : name ≠ "type") (nullable : name ≠ "nullable") :
    (normalized times es place).get name =
      normalize times (es.get name) (.entry (.str name) :: place) := by
  rw [Entries.get, Entries.get, find?_normalized times es place type nullable]
  cases es.find? name <;> rfl

theorem has_normalized (es : Entries) (place : Value.Place) {name : String}
    (nullable : name ≠ "nullable") : (normalized times es place).has name = es.has name := by
  rw [Entries.has, Entries.has, normalized_eq]
  split
  · rw [find?_updateEntry, find?_erase, if_neg nullable, find?_normalizeMembers]
    split <;> simp
  · rw [find?_updateEntry, find?_normalizeMembers]
    split <;> simp

theorem isTrue_nullable_normalized (es : Entries) (place : Value.Place) :
    ((normalized times es place).get "nullable").isTrue =
      ((es.get "nullable").isTrue && !movesNull es) := by
  rw [normalized_eq]
  split
  · next moves =>
    rw [Entries.get, find?_updateEntry, if_neg (by decide), find?_erase, if_pos rfl, moves]
    simp [Value.isTrue]
  · next stays =>
    rw [Entries.get, find?_updateEntry, if_neg (by decide), ← Entries.get, get_normalizeMembers,
      isTrue_normalize]
    simp [stays]

end Place

/-! ### Types -/

/-- Whether a value is a text or a list of texts. -/
def areWords : Value → Bool
  | .str _ => true
  | .list items => items.all fun v => v.str?.isSome
  | _ => false

/-- The texts that a value is or lists. -/
def wordsOf : Value → List String
  | .str s => [s]
  | .list items => items.filterMap Value.str?
  | _ => []

/-- Whether the `type` of a schema, where it has one, is a text or a list of texts. -/
def isTyped (es : Entries) : Bool := (es.find? "type").all areWords

theorem mapM_shown {items : List Value} (h : areWords (.list items) = true) :
    items.mapM Value.shown = .ok (wordsOf (.list items)) := by
  induction items with
  | nil => rfl
  | cons v rest ih =>
    rw [areWords, List.all_cons, Bool.and_eq_true] at h
    cases v with
    | str s =>
      rw [List.mapM_cons, ih h.2]
      rfl
    | _ => cases h.1

theorem typesOf_eq {es : Entries} (h : isTyped es = true) :
    Schema.typesOf es = .ok (wordsOf (es.get "type")) := by
  rw [isTyped] at h
  rw [Schema.typesOf, Entries.get]
  cases found : es.find? "type" with
  | none => rfl
  | some v =>
    rw [found] at h
    cases v with
    | str s => rfl
    | list items => exact mapM_shown h
    | _ => cases h

theorem areSettled_of_words {items : List Value} (h : areWords (.list items) = true) :
    areSettled items = true := by
  induction items with
  | nil => rfl
  | cons v rest ih =>
    rw [areWords, List.all_cons, Bool.and_eq_true] at h
    rw [areSettled, ih h.2, Bool.and_true]
    cases v with
    | str s => rfl
    | _ => cases h.1

theorem isSettled_of_words {v : Value} (h : areWords v = true) : isSettled v = true := by
  cases v with
  | str s => rfl
  | list items => exact areSettled_of_words h
  | _ => cases h

theorem unwrapType_words (times : Value.Place → Nat) (place : Value.Place) {v : Value}
    (h : areWords v = true) : areWords (unwrapType times place v) = true ∧
      wordsOf (unwrapType times place v) = wordsOf v := by
  cases v with
  | str s => exact ⟨rfl, rfl⟩
  | list items =>
    by_cases single : isSingleton (.list items)
    · obtain ⟨v, eq⟩ := eq_of_isSingleton single
      cases eq
      cases v with
      | str s => exact ⟨rfl, rfl⟩
      | _ => cases h
    · rw [unwrapType_of_not_singleton times (Bool.eq_false_iff.2 single)]
      exact ⟨h, rfl⟩
  | _ => cases h

theorem null_mem_wordsOf {items : List Value} :
    "null" ∈ wordsOf (.list items) ↔ items.any isNullWord = true := by
  rw [wordsOf, List.mem_filterMap, List.any_eq_true]
  refine exists_congr fun v => and_congr_right fun _ => ?_
  cases v <;> simp [Value.str?, isNullWord]

/-- A `type` that admits `null` lists it besides what it lists. -/
theorem admitNull_words {v : Value} (h : areWords v = true) : areWords (admitNull v) = true ∧
    SameItems (wordsOf (admitNull v)) (wordsOf v ++ ["null"]) := by
  cases v with
  | str s => exact ⟨rfl, .refl _⟩
  | list items =>
    rw [admitNull]
    split
    · next null =>
      refine ⟨h, fun word => ?_⟩
      rw [List.mem_append, List.mem_singleton, or_iff_left_of_imp]
      rintro rfl
      exact null_mem_wordsOf.2 null
    · refine ⟨?_, ?_⟩
      · rw [areWords] at h ⊢
        rw [List.all_append, h]
        rfl
      · rw [wordsOf, wordsOf, List.filterMap_append]
        exact .refl _
  | _ => cases h

/-- The `type` of a schema after normalisation, where the one before is text. -/
theorem find?_type_normalized (times : Value.Place → Nat) (place : Value.Place) {es : Entries}
    (h : isTyped es = true) : (normalized times es place).find? "type" =
      (es.find? "type").map fun v =>
        unwrapType times place (if movesNull es then admitNull v else v) := by
  have members : Entries.find? "type" (normalizeMembers times es place) = es.find? "type" := by
    rw [isTyped] at h
    rw [find?_normalizeMembers]
    cases found : es.find? "type" with
    | none => rfl
    | some v =>
      rw [found] at h
      rw [Option.map_some, normalize_eq_self times (isSettled_of_words h)]
  rw [normalized_eq]
  split
  · rw [find?_updateEntry, if_pos rfl, find?_erase, if_neg (by decide), members]
  · rw [find?_updateEntry, if_pos rfl, members]

/-- The types of a schema after normalisation: those before, and `null` where it has moved. -/
theorem typesOf_normalized (times : Value.Place → Nat) (place : Value.Place) {es : Entries}
    (h : isTyped es = true) : ∃ words, Schema.typesOf (normalized times es place) = .ok words ∧
      SameItems words (wordsOf (es.get "type") ++ if movesNull es then ["null"] else []) := by
  have type := find?_type_normalized times place h
  cases found : es.find? "type" with
  | none =>
    have stays : movesNull es = false := by
      rw [movesNull, Entries.has, found, Option.isSome_none, Bool.and_false]
    rw [found, Option.map_none] at type
    refine ⟨[], by rw [Schema.typesOf, Entries.get, type]; rfl, ?_⟩
    rw [Entries.get, found, stays]
    exact .refl _
  | some v =>
    have words : areWords v = true := by
      rw [isTyped, found] at h
      exact h
    have admitted : areWords (if movesNull es then admitNull v else v) = true ∧
        SameItems (wordsOf (if movesNull es then admitNull v else v))
          (wordsOf v ++ if movesNull es then ["null"] else []) := by
      split
      · exact admitNull_words words
      · rw [List.append_nil]
        exact ⟨words, .refl _⟩
    obtain ⟨unwrapped, same⟩ := unwrapType_words times place admitted.1
    rw [found, Option.map_some] at type
    refine ⟨_, typesOf_eq ?_, ?_⟩
    · rw [isTyped, type]
      exact unwrapped
    · rw [Entries.get, Entries.get, type, found, Option.getD_some, Option.getD_some, same]
      exact admitted.2

end ClientGen.Document
