import ClientGen.Proofs.Schema.Null
import ClientGen.Proofs.Value.Json

/-!
# Which schemas have a type

Of the keywords of a schema only `required` and `properties` have to be of a certain form, and only
where they are read (`listsMembers`): all others are passed over where they make no sense. So a
schema of JSON is lowered to a type exactly if no schema that is read as an object, in it and down
to the deepest level (`schemasRead`), has one of the two malformed (`returns_lowerWithin_iff`).
-/

namespace ClientGen

open Value (IsJson)

/-! ### Steps that return -/

namespace Report

variable {ν α β : Type}

/-- Whether a step ends in a value. -/
def Returns (x : Report ν α) : Prop := ∃ a, x.result = .ok a

theorem returns_pure (a : α) : Returns (pure a : Report ν α) := ⟨a, rfl⟩

theorem returns_bind_iff {x : Report ν α} {f : α → Report ν β} :
    Returns (x >>= f) ↔ ∃ a, x.result = .ok a ∧ Returns (f a) := by
  simp only [Returns, bind_result_eq_ok_iff]
  exact ⟨fun ⟨b, a, first, next⟩ => ⟨a, first, b, next⟩,
    fun ⟨a, first, b, next⟩ => ⟨b, a, first, next⟩⟩

/-- A step and then one that returns or not for all values that the first one yields. -/
theorem returns_bind_iff_and_of_yields {x : Report ν α} {f : α → Report ν β} {Q : α → Prop}
    {P : Prop} (first : Yields Q x) (next : ∀ a, Q a → (Returns (f a) ↔ P)) :
    Returns (x >>= f) ↔ Returns x ∧ P := by
  rw [returns_bind_iff]
  constructor
  · rintro ⟨a, ended, later⟩
    exact ⟨⟨a, ended⟩, (next a (first a ended)).1 later⟩
  · rintro ⟨⟨a, ended⟩, holds⟩
    exact ⟨a, ended, (next a (first a ended)).2 holds⟩

/-- A step and then one that returns or not whatever the first one ended in. -/
theorem returns_bind_iff_and {x : Report ν α} {f : α → Report ν β} {P : Prop}
    (next : ∀ a, Returns (f a) ↔ P) : Returns (x >>= f) ↔ Returns x ∧ P :=
  returns_bind_iff_and_of_yields (yields_true x) fun a _ => next a

theorem returns_bind_pure_iff {x : Report ν α} {f : α → β} :
    Returns (x >>= fun a => pure (f a)) ↔ Returns x := by
  rw [returns_bind_iff_and fun a => iff_true_intro (returns_pure (f a)), and_true]

theorem returns_map_iff {x : Report ν α} {f : α → β} : Returns (f <$> x) ↔ Returns x := by
  rw [map_eq_pure_bind, returns_bind_pure_iff]

theorem returns_ofText_iff {x : Except Textless α} :
    Returns (ofText x : Report ν α) ↔ ∃ a, x = .ok a :=
  exists_congr fun _ => ofText_result_eq_ok_iff

theorem not_returns_malformed : ¬ Returns (malformed : Report ν α) := by
  rintro ⟨a, ended⟩
  cases ended

theorem returns_ite_malformed_iff {b : Bool} {a : α} :
    Returns (if b then pure a else malformed : Report ν α) ↔ b = true := by
  cases b with
  | true => exact iff_of_true (returns_pure _) rfl
  | false => exact iff_of_false not_returns_malformed Bool.false_ne_true

theorem returns_ofOption_iff {o : Option α} :
    Returns (ofOption o : Report ν α) ↔ o.isSome = true := by
  cases o with
  | none => exact iff_of_false not_returns_malformed Bool.false_ne_true
  | some a => exact iff_of_true ⟨a, rfl⟩ rfl

end Report

theorem Value.IsJson.of_mem_itemsOf {v w : Value} (json : IsJson v) (mem : w ∈ Schema.itemsOf v) :
    IsJson w := by
  cases json with
  | list items_json => exact items_json w mem
  | _ => exact absurd mem List.not_mem_nil

namespace Schema

open Report (Returns ofText_result_eq_ok_iff returns_pure returns_bind_iff returns_bind_iff_and
  returns_bind_pure_iff returns_map_iff returns_ofText_iff returns_ofOption_iff)

theorem returns_eachOf_iff {α β : Type} {f : α → Lowering β} {as : List α} :
    Returns (eachOf f as) ↔ ∀ a ∈ as, Returns (f a) := exists_eachOf_iff

/-! ### Keywords of objects -/

/-- The values of a mapping; other values have none. -/
def membersOf (v : Value) : List Value := (v.map?.getD []).map (·.2)

/-- Whether `required` can list keys: a list of scalars can, and so can what counts as absent. -/
def listsKeys : Value → Bool
  | .list items => items.all fun v => v.toKey?.isSome
  | .map _ => true
  | .str _ => true
  | v => !v.truthy

/-- Whether the members of an object can be read. -/
def listsMembers (es : Entries) : Bool :=
  listsKeys (es.get "required") && ((es.get "properties").isMap || !(es.get "properties").truthy)

theorem isSome_mapM_iff {α β : Type} {f : α → Option β} {as : List α} :
    (as.mapM f).isSome = true ↔ ∀ a ∈ as, (f a).isSome = true := by
  induction as with
  | nil => simp
  | cons a rest ih =>
    rw [List.mapM_cons, List.forall_mem_cons, ← ih]
    cases f a <;> cases rest.mapM f <;> simp

theorem isSome_requiredKeys?_iff_listed {v : Value} :
    (requiredKeys? v).isSome = true ↔ (v.truthy = true → ∃ items, v.listed? = some items ∧
      ∀ item ∈ items, item.memberKeys?.isSome = true) := by
  rw [requiredKeys?]
  cases truthy : v.truthy with
  | false => simp
  | true =>
    cases listed : v.listed? with
    | none => simp
    | some items => simp [isSome_mapM_iff]

theorem isSome_memberKeys?_iff {v : Value} (json : IsJson v) :
    v.memberKeys?.isSome = true ↔ v.toKey?.isSome = true := by
  cases json <;> exact Iff.rfl

theorem isSome_requiredKeys?_iff {v : Value} (json : IsJson v) :
    (requiredKeys? v).isSome = true ↔ listsKeys v = true := by
  rw [isSome_requiredKeys?_iff_listed]
  cases json with
  | @list items items_json =>
    rw [listsKeys, List.all_eq_true]
    constructor
    · intro listed item mem
      obtain ⟨items', same, each⟩ := listed (by cases items <;> trivial)
      cases same
      exact (isSome_memberKeys?_iff (items_json item mem)).1 (each item mem)
    · intro scalars _
      refine ⟨items, rfl, fun item mem => ?_⟩
      exact (isSome_memberKeys?_iff (items_json item mem)).2 (scalars item mem)
  | @map es names _ =>
    refine iff_of_true (fun _ => ⟨_, rfl, fun item mem => ?_⟩) rfl
    obtain ⟨e, -, rfl⟩ := List.mem_map.1 mem
    cases e.1 <;> rfl
  | str s =>
    refine iff_of_true (fun _ => ⟨_, rfl, fun item mem => ?_⟩) rfl
    obtain ⟨n, -, rfl⟩ := List.mem_map.1 mem
    rfl
  | _ => simp [listsKeys, Value.listed?]

theorem isSome_propertyEntries?_iff {v : Value} :
    (propertyEntries? v).isSome = true ↔ (v.isMap || !v.truthy) = true := by
  rw [propertyEntries?, Value.isMap]
  cases v.truthy <;> simp

theorem propertyEntries?_eq {v : Value} {ps : Entries} (read : propertyEntries? v = some ps) :
    ps.map (·.2) = membersOf v ∧ (ps = [] ∨ v = .map ps) := by
  rw [propertyEntries?] at read
  cases v with
  | map es =>
    cases es with
    | nil =>
      cases read
      exact ⟨rfl, .inl rfl⟩
    | cons e rest =>
      cases read
      exact ⟨rfl, .inr rfl⟩
  | _ =>
    split at read
    · cases read
      exact ⟨rfl, .inl rfl⟩
    · cases read

/-! ### Which schemas are read -/

/-- The schema of values that are not listed, where `additionalProperties` has one. -/
def additionalParts : Value → List Value
  | .map (e :: fs) => [.map (e :: fs)]
  | _ => []

/-- The schemas in an object. -/
def objectParts (es : Entries) : List Value :=
  membersOf (es.get "properties") ++ additionalParts (es.get "additionalProperties")

/-- The schema of all items, where `items` has one. -/
def itemParts : Value → List Value
  | .null => []
  | .bool false => []
  | v => [v]

/-- The schemas in an array: those of its first items, or else that of all items. -/
def arrayParts (es : Entries) : List Value :=
  match itemsOf (es.get "prefixItems") with
  | [] => itemParts (es.get "items")
  | items => items

/-- The schemas in a schema of one type. -/
def partsAs (es : Entries) (type : String) : List Value :=
  if type = "array" then arrayParts es
  else if type = "object" then objectParts es
  else []

/-- The types as which a schema that lists no values is read. One that combines others is read as an
object if it has properties of its own. -/
def typesRead (es : Entries) : List String :=
  if isComposed es then
    if (es.get "properties").truthy || (es.get "additionalProperties").isMap then ["object"] else []
  else (impliedTypes es).toOption.getD []

/-- Whether a schema neither refers to another nor lists values. -/
def isOpen (es : Entries) : Bool := (es.get "$ref").str?.isNone && (literalsOf es).isEmpty

/-- The schemas that a combination combines. -/
def alternativesOf (es : Entries) : List Value :=
  if isComposed es then compositionKeywords.flatMap fun keyword => itemsOf (es.get keyword) else []

/-- The schemas that lowering goes on to from a schema. -/
def partsOf (es : Entries) : List Value :=
  if isOpen es then alternativesOf es ++ (typesRead es).flatMap (partsAs es) else []

/-- Whether the members of a schema are read. -/
def isReadAsObject (es : Entries) : Bool := isOpen es && (typesRead es).contains "object"

/-- The schemas that are read in a schema, with `budget` levels of nesting left. -/
def schemasRead : (budget : Nat) → Value → List Entries
  | budget + 1, .map es => es :: (partsOf es).flatMap (schemasRead budget)
  | _, _ => []

/-! ### Steps of the lowering -/

section Steps

variable {sub : Value → Lowering TypeExpr} {es : Entries} (json : IsJson (.map es))

/-- A step for the values that are not listed returns if that for their schema does. -/
theorem returns_additional_iff {α : Type} {f : Value → Lowering α}
    (anything : ∀ v, additionalParts v = [] → Returns (f v))
    (typed : ∀ e fs, Returns (f (.map (e :: fs))) ↔ Returns (sub (.map (e :: fs)))) (v : Value) :
    Returns (f v) ↔ ∀ part ∈ additionalParts v, Returns (sub part) := by
  cases v with
  | map es =>
    cases es with
    | nil => exact iff_of_true (anything _ rfl) (List.forall_mem_nil _)
    | cons e fs =>
      rw [additionalParts, List.forall_mem_singleton]
      exact typed e fs
  | _ => exact iff_of_true (anything _ rfl) (List.forall_mem_nil _)

theorem returns_lowerAdditional_iff (v : Value) :
    Returns (lowerAdditional sub v) ↔ ∀ part ∈ additionalParts v, Returns (sub part) := by
  refine returns_additional_iff (fun v none => ?_) (fun e fs => returns_bind_pure_iff) v
  unfold lowerAdditional
  split
  · exact returns_pure _
  · exact returns_pure _
  · next es some =>
    cases es with
    | nil => exact absurd rfl some
    | cons e fs => cases none
  · exact returns_pure _

include json in
/-- Steps for the properties return if those for their schemas do. -/
theorem returns_properties_iff {α : Type} {f : Key × Value → Lowering α}
    (step : ∀ s v, Returns (f (.str s, v)) ↔ Returns (sub v)) {ps : Entries}
    (read : propertyEntries? (es.get "properties") = some ps) :
    Returns (eachOf f ps) ↔ ∀ part ∈ membersOf (es.get "properties"), Returns (sub part) := by
  rw [returns_eachOf_iff]
  obtain ⟨values, rfl | properties⟩ := propertyEntries?_eq read
  · rw [← values]
    exact iff_of_true (List.forall_mem_nil _) (List.forall_mem_nil _)
  · rw [← values, List.forall_mem_map]
    refine forall₂_congr fun p mem => ?_
    cases properties ▸ json.get "properties" with
    | map names _ =>
      obtain ⟨s, name⟩ := names p mem
      obtain ⟨k, v⟩ := p
      cases name
      exact step s v

include json in
/-- The members are listed, and then something returns that depends on them. -/
theorem returns_members_iff {α : Type} {f : List Key → Entries → Lowering α} {P : Prop}
    (next : ∀ required ps, propertyEntries? (es.get "properties") = some ps →
      (Returns (f required ps) ↔ P)) :
    Returns (do
      let required ← Report.ofOption (requiredKeys? (es.get "required"))
      let properties ← Report.ofOption (propertyEntries? (es.get "properties"))
      f required properties) ↔ listsMembers es = true ∧ P := by
  rw [listsMembers, Bool.and_eq_true, ← isSome_requiredKeys?_iff (json.get "required"),
    ← isSome_propertyEntries?_iff, and_assoc, ← @returns_ofOption_iff Note]
  refine returns_bind_iff_and fun required => ?_
  cases read : propertyEntries? (es.get "properties") with
  | none =>
    refine iff_of_false (fun returns => ?_) fun read => Bool.false_ne_true read.1
    obtain ⟨ps, ended, -⟩ := returns_bind_iff.1 returns
    cases ended
  | some ps =>
    rw [← next required ps read]
    exact (iff_of_eq (congrArg Returns (pure_bind ps _))).trans (and_iff_right rfl).symm

include json in
theorem returns_lowerObject_iff : Returns (lowerObject sub es) ↔
    listsMembers es = true ∧ ∀ part ∈ objectParts es, Returns (sub part) := by
  refine returns_members_iff json fun required ps read => ?_
  rw [objectParts, List.forall_mem_append, ← returns_lowerAdditional_iff]
  refine (returns_bind_iff_and fun members => ?_).trans
    (and_congr_left' (returns_properties_iff json (fun s v => ?property) read))
  case property =>
    refine (returns_bind_iff_and fun name => returns_bind_pure_iff).trans ?_
    exact and_iff_right ⟨s, rfl⟩
  rw [returns_bind_iff_and fun additional => iff_true_intro ?_, and_true]
  split
  · exact returns_pure _
  · exact returns_pure _
  · exact returns_pure _
  · split <;> exact returns_pure _

theorem returns_lowerArray_iff :
    Returns (lowerArray sub es) ↔ ∀ part ∈ arrayParts es, Returns (sub part) := by
  rw [lowerArray_eq, arrayParts]
  cases itemsOf (es.get "prefixItems") with
  | cons first rest => rw [returns_bind_pure_iff, returns_eachOf_iff]
  | nil =>
    dsimp only
    generalize es.get "items" = v
    have alone (v : Value) : Returns (do return TypeExpr.array (← sub v) : Lowering TypeExpr) ↔
        ∀ part ∈ [v], Returns (sub part) := by
      rw [returns_bind_pure_iff, List.forall_mem_singleton]
    cases v with
    | null => exact iff_of_true (returns_pure _) (List.forall_mem_nil _)
    | bool b =>
      cases b with
      | false => exact iff_of_true (returns_pure _) (List.forall_mem_nil _)
      | true => exact alone _
    | _ => exact alone _

include json in
theorem returns_lowerSingle_iff (type : String) : Returns (lowerSingle sub es type) ↔
    (type = "object" → listsMembers es = true) ∧
      ∀ part ∈ partsAs es type, Returns (sub part) := by
  rw [partsAs]
  by_cases array : type = "array"
  · subst array
    exact returns_lowerArray_iff.trans (and_iff_right fun same => absurd same (by decide)).symm
  · rw [if_neg array]
    by_cases object : type = "object"
    · subst object
      rw [if_pos rfl, forall_prop_of_true rfl]
      exact returns_lowerObject_iff json
    · rw [if_neg object]
      refine iff_of_true ?_ ⟨fun same => absurd same object, List.forall_mem_nil _⟩
      rw [lowerSingle, if_neg array, if_neg object]
      split
      · exact returns_pure _
      · exact ⟨_, rfl⟩

include json in
theorem returns_types_iff (types : List String) : Returns (eachOf (lowerSingle sub es) types) ↔
    ("object" ∈ types → listsMembers es = true) ∧
      ∀ part ∈ types.flatMap (partsAs es), Returns (sub part) := by
  simp only [returns_eachOf_iff, returns_lowerSingle_iff json, List.forall_mem_flatMap, forall_and]
  refine and_congr_left' ⟨fun each mem => each "object" mem rfl, ?_⟩
  rintro listed type mem rfl
  exact listed mem

theorem returns_lowerKeyword_iff (keyword : String) : Returns (lowerKeyword sub es keyword) ↔
    ∀ part ∈ itemsOf (es.get keyword), Returns (sub part) := by
  rw [lowerKeyword_eq]
  cases itemsOf (es.get keyword) with
  | nil => exact iff_of_true (returns_pure _) (List.forall_mem_nil _)
  | cons first rest => rw [returns_bind_pure_iff, returns_eachOf_iff]

include json in
theorem exists_typesOf : ∃ types, typesOf es = .ok types := by
  have type_json := json.get "type"
  rw [typesOf]
  generalize es.get "type" = type at type_json
  cases type_json with
  | str s => exact ⟨_, rfl⟩
  | list items_json => exact exists_mapM fun v mem => (items_json v mem).shown
  | _ => exact ⟨_, rfl⟩

include json in
theorem exists_impliedTypes : ∃ types, impliedTypes es = .ok types := by
  obtain ⟨types, read⟩ := exists_typesOf json
  rw [impliedTypes, read]
  cases types with
  | cons type rest => exact ⟨_, rfl⟩
  | nil =>
    dsimp only [bind, Except.bind]
    split
    · exact ⟨_, rfl⟩
    · split <;> exact ⟨_, rfl⟩

include json in
theorem returns_ownPart_iff (composed : isComposed es = true) : Returns (ownPart sub es) ↔
    ("object" ∈ typesRead es → listsMembers es = true) ∧
      ∀ part ∈ (typesRead es).flatMap (partsAs es), Returns (sub part) := by
  rw [ownPart, typesRead, if_pos composed, ← returns_types_iff json]
  split
  · rw [returns_map_iff, returns_eachOf_iff, List.forall_mem_singleton]
    rfl
  · exact iff_of_true (returns_pure _) (returns_pure _)

include json in
theorem returns_lowerOpen_iff : Returns (lowerOpen sub es) ↔
    ("object" ∈ typesRead es → listsMembers es = true) ∧
      ∀ part ∈ alternativesOf es ++ (typesRead es).flatMap (partsAs es), Returns (sub part) := by
  rw [lowerOpen, alternativesOf]
  cases composed : isComposed es with
  | true =>
    obtain ⟨types, read⟩ := exists_typesOf json
    rw [if_pos rfl, if_pos rfl, lowerComposition_eq, List.forall_mem_append, and_left_comm,
      ← returns_ownPart_iff json composed, List.forall_mem_flatMap]
    have parts : Returns (eachOf (lowerKeyword sub es) compositionKeywords) ↔
        ∀ keyword ∈ compositionKeywords, ∀ part ∈ itemsOf (es.get keyword),
          Returns (sub part) := by
      simp only [returns_eachOf_iff, returns_lowerKeyword_iff]
    rw [returns_bind_iff_and fun t => iff_true_intro ?typed, and_true, ← parts, combined]
    case typed =>
      rw [returns_bind_pure_iff]
      exact returns_ofText_iff.2 ⟨_, read⟩
    exact returns_bind_iff_and fun _ => returns_bind_pure_iff
  | false =>
    obtain ⟨types, read⟩ := exists_impliedTypes json
    rw [if_neg Bool.false_ne_true, if_neg Bool.false_ne_true, List.nil_append, typesRead, composed,
      if_neg Bool.false_ne_true, read]
    change _ ↔ ("object" ∈ types → _) ∧ ∀ part ∈ types.flatMap (partsAs es), _
    rw [← returns_types_iff json]
    cases types with
    | nil => exact iff_of_true (returns_pure _) (returns_pure _)
    | cons type rest => exact returns_bind_pure_iff

include json in
theorem hasText_of_mem_literalsOf : (literalsOf es).all hasText = true := by
  refine List.all_eq_true.2 fun v mem => ?_
  have json_v : IsJson v := by
    rw [literalsOf] at mem
    cases const : Entries.find? "const" es with
    | some value =>
      rw [const, List.mem_singleton] at mem
      have value_json := json.get "const"
      rw [Entries.get, const] at value_json
      rw [mem]
      exact value_json
    | none =>
      rw [const] at mem
      exact (json.get "enum").of_mem_itemsOf mem
  obtain ⟨text, written⟩ := json_v.literalText
  rw [hasText, written]
  rfl

include json in
theorem returns_lowerEntries_iff (scope : Scope) : Returns (lowerEntries sub scope es) ↔
    (isReadAsObject es = true → listsMembers es = true) ∧
      ∀ part ∈ partsOf es, Returns (sub part) := by
  rw [lowerEntries_eq, isReadAsObject, partsOf, isOpen]
  cases (es.get "$ref").str? with
  | some ref =>
    obtain ⟨t, ended, -⟩ := lowerReference_result scope ref
    exact iff_of_true ⟨t, ended⟩ ⟨fun read => absurd read Bool.false_ne_true, List.forall_mem_nil _⟩
  | none =>
    have texts := hasText_of_mem_literalsOf json
    dsimp only
    rw [lowerUnreferred]
    cases literals : literalsOf es with
    | cons v rest =>
      rw [literals] at texts
      exact iff_of_true (exists_lowerLiterals_iff.2 texts)
        ⟨fun read => absurd read Bool.false_ne_true, List.forall_mem_nil _⟩
    | nil =>
      have object : (typesRead es).contains "object" = true ↔ "object" ∈ typesRead es :=
        List.contains_iff_mem
      have readAsOpen : Returns (lowerOpen sub es) ↔ _ := returns_lowerOpen_iff json
      rw [← object] at readAsOpen
      exact readAsOpen

end Steps

/-! ### Types -/

section Json

variable {es : Entries} (json : IsJson (.map es))

include json

theorem isJson_of_mem_membersOf {name : String} {w : Value} (mem : w ∈ membersOf (es.get name)) :
    IsJson w := by
  have named := json.get name
  generalize es.get name = v at named mem
  cases named with
  | map _ values_json =>
    obtain ⟨p, member, rfl⟩ := List.mem_map.1 mem
    exact values_json p member
  | _ => exact absurd mem List.not_mem_nil

theorem isJson_of_mem_objectParts {w : Value} (mem : w ∈ objectParts es) : IsJson w := by
  rcases List.mem_append.1 mem with mem | mem
  · exact isJson_of_mem_membersOf json mem
  · unfold additionalParts at mem
    split at mem
    · next e fs additional =>
      rw [List.mem_singleton.1 mem, ← additional]
      exact json.get "additionalProperties"
    · exact absurd mem List.not_mem_nil

theorem isJson_of_mem_arrayParts {w : Value} (mem : w ∈ arrayParts es) : IsJson w := by
  unfold arrayParts at mem
  split at mem
  · have items := json.get "items"
    unfold itemParts at mem
    split at mem
    · exact absurd mem List.not_mem_nil
    · exact absurd mem List.not_mem_nil
    · rw [List.mem_singleton.1 mem]
      exact items
  · exact (json.get "prefixItems").of_mem_itemsOf mem

theorem isJson_of_mem_partsOf {w : Value} (mem : w ∈ partsOf es) : IsJson w := by
  unfold partsOf at mem
  split at mem
  case isFalse => exact absurd mem List.not_mem_nil
  rcases List.mem_append.1 mem with mem | mem
  · unfold alternativesOf at mem
    split at mem
    · obtain ⟨keyword, -, mem⟩ := List.mem_flatMap.1 mem
      exact (json.get keyword).of_mem_itemsOf mem
    · exact absurd mem List.not_mem_nil
  · obtain ⟨type, -, mem⟩ := List.mem_flatMap.1 mem
    unfold partsAs at mem
    split at mem
    · exact isJson_of_mem_arrayParts json mem
    · split at mem
      · exact isJson_of_mem_objectParts json mem
      · exact absurd mem List.not_mem_nil

end Json

theorem eq_map_of_map? {v : Value} {es : Entries} (found : v.map? = some es) : v = .map es := by
  cases v <;> cases found
  rfl

theorem schemasRead_of_map?_eq_none {v : Value} (noMap : v.map? = none) (budget : Nat) :
    schemasRead budget v = [] := by
  cases v with
  | map es => cases noMap
  | _ => cases budget <;> rfl

/-- Values that are no mapping have a type without anything being read. -/
theorem returns_lowerWithin_of_map?_eq_none {v : Value} (noMap : v.map? = none) (scope : Scope)
    (budget : Nat) : Returns (lowerWithin scope budget v) := by
  cases v with
  | map es => cases noMap
  | bool b => cases budget <;> cases b <;> exact returns_pure _
  | _ => cases budget <;> exact returns_pure _

/-- **A schema of JSON has a type** exactly if every schema in it that is read as an object lists
its members. -/
theorem returns_lowerWithin_iff (scope : Scope) {budget : Nat} {v : Value} (json : IsJson v) :
    Returns (lowerWithin scope budget v) ↔ ∀ es ∈ schemasRead budget v,
      isReadAsObject es = true → listsMembers es = true := by
  induction budget generalizing v with
  | zero =>
    cases found : v.map? with
    | none =>
      rw [schemasRead_of_map?_eq_none found]
      exact iff_of_true (returns_lowerWithin_of_map?_eq_none found _ _) (List.forall_mem_nil _)
    | some es =>
      rw [eq_map_of_map? found]
      exact iff_of_true ⟨_, rfl⟩ (List.forall_mem_nil _)
  | succ budget ih =>
    cases found : v.map? with
    | none =>
      rw [schemasRead_of_map?_eq_none found]
      exact iff_of_true (returns_lowerWithin_of_map?_eq_none found _ _) (List.forall_mem_nil _)
    | some es =>
      rw [eq_map_of_map? found] at json ⊢
      rw [lowerWithin, returns_bind_pure_iff, returns_lowerEntries_iff json, schemasRead,
        List.forall_mem_cons, List.forall_mem_flatMap]
      refine and_congr_right' (forall₂_congr fun part mem => ?_)
      exact ih (isJson_of_mem_partsOf json mem)

end Schema

end ClientGen
