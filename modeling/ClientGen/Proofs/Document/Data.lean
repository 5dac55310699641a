import ClientGen.Value.Shared

/-!
# Data in a schema

A schema holds more than schemas: the values under `const`, `default` and `example`, and those
listed under `enum` and `examples`, are data that an instance is compared with, and `properties`
holds names that an instance uses. What stands at a place of a schema is told by the keywords on the
way there (`holdingAt`), not by how it looks.

What becomes of the data where every value is changed in its place is `keepsData_iff`: they are kept
exactly if the change keeps each of them.
-/

namespace ClientGen.Document

open Value (Place Step)

/-! ### Entries under keys of every kind -/

/-- What stands under a key where the values are changed. -/
theorem lookup_map_entries (f : Key → Value → Value) (es : Entries) (k : Key) :
    List.lookup k (es.map fun e => (e.1, f e.1 e.2)) = (es.lookup k).map (f k) := by
  induction es with
  | nil => rfl
  | cons e rest ih =>
    rw [List.map_cons, List.lookup_cons, List.lookup_cons, ih]
    cases same : k == e.1 with
    | true =>
      rw [beq_iff_eq.1 same]
      rfl
    | false => rfl

theorem lookup_erase_of_ne {name : String} {k : Key} (other : k ≠ .str name) (es : Entries) :
    List.lookup k (es.erase name) = es.lookup k := by
  induction es with
  | nil => rfl
  | cons e rest ih =>
    rw [Entries.erase, List.filter_cons]
    by_cases here : e.1 = .str name
    · rw [if_neg (by simpa using here), ← Entries.erase, ih, List.lookup_cons,
        beq_eq_false_iff_ne.2 (here ▸ other)]
    · rw [if_pos (by simpa using here), ← Entries.erase, List.lookup_cons, List.lookup_cons, ih]

theorem find?_eq_lookup (name : String) (es : Entries) :
    es.find? name = es.lookup (.str name) := by
  induction es with
  | nil => rfl
  | cons e rest ih =>
    obtain ⟨k, v⟩ := e
    rw [Entries.find?, List.lookup_cons, ih]
    by_cases here : k = .str name
    · rw [if_pos here, beq_iff_eq.2 here.symm]
    · rw [if_neg here, beq_eq_false_iff_ne.2 (Ne.symm here)]

/-! ### What a place holds -/

/-- What stands at a place of a schema. -/
inductive Holding where
  | schema
  /-- A list of schemas. -/
  | schemas
  /-- The properties of an object: schemas under names that an instance uses. -/
  | properties
  /-- Schemas under other names. -/
  | definitions
  /-- A value for an instance. -/
  | datum
  /-- A list of values for an instance. -/
  | data
  | other
deriving DecidableEq

/-- What a schema holds under a key. -/
def holdingUnder : Key → Holding
  | .str name =>
    if name ∈ ["items", "additionalItems", "unevaluatedItems", "contains", "additionalProperties",
      "unevaluatedProperties", "propertyNames", "contentSchema", "not", "if", "then", "else"]
    then .schema
    else if name ∈ ["prefixItems", "oneOf", "anyOf", "allOf"] then .schemas
    else if name = "properties" then .properties
    else if name ∈ ["patternProperties", "dependentSchemas", "definitions", "$defs"]
    then .definitions
    else if name ∈ ["const", "default", "example"] then .datum
    else if name ∈ ["enum", "examples"] then .data
    else .other
  | _ => .other

/-- What stands one step further. -/
def Holding.after : Holding → Step → Holding
  | .schema, .entry k => holdingUnder k
  | .schemas, .item _ => .schema
  | .properties, .entry _ => .schema
  | .definitions, .entry _ => .schema
  | .data, .item _ => .datum
  | _, _ => .other

/-- What stands at a place that is reached from a schema. -/
def holdingAt : Place → Holding
  | [] => .schema
  | step :: rest => (holdingAt rest).after step

/-- What a step leads to in a list or a mapping. -/
def member? : Value → Step → Option Value
  | .list items, .item n => items[n]?
  | .map es, .entry k => es.lookup k
  | _, _ => none

/-- What stands at a place in a value. -/
def at? (v : Value) : Place → Option Value
  | [] => some v
  | step :: rest => (at? v rest).bind (member? · step)

/-- Whether a value is one of the data in a schema. -/
def IsDatum (v w : Value) : Prop := ∃ place, holdingAt place = .datum ∧ at? v place = some w

/-- Whether entries are the properties of an object in a schema. -/
def IsProperties (v : Value) (ps : Entries) : Prop :=
  ∃ place, holdingAt place = .properties ∧ at? v place = some (.map ps)

/-- Whether the data of a schema stand unchanged in another one, and its properties have the same
names in the same order there. -/
structure KeepsData (v v' : Value) : Prop where
  data : ∀ place w, holdingAt place = .datum → at? v place = some w → at? v' place = some w
  names : ∀ place ps, holdingAt place = .properties → at? v place = some (.map ps) →
    ∃ ps', at? v' place = some (.map ps') ∧ ps'.map (·.1) = ps.map (·.1)

/-! ### Changes of values in their places -/

/-- Whether a value can be what a place holds: a schema is a mapping here, since others hold no
data. -/
def Holding.Admits : Holding → Value → Prop
  | .schema, v => v.isMap = true
  | .other, _ => False
  | _, _ => True

/-- What a step leads to from admits only what has members. -/
theorem Holding.admits_of_member {h : Holding} {u w : Value} {step : Step}
    (member : member? u step = some w) (admits : (h.after step).Admits w) : h.Admits u := by
  cases h with
  | schema =>
    cases step with
    | item n => exact admits.elim
    | entry k =>
      cases u with
      | map es => rfl
      | _ => cases member
  | schemas | properties | definitions | datum | data => trivial
  | other => exact admits.elim

/-- Whether a change of values leads from the members of a value to members of the changed one,
where data may stand below them. -/
def StaysInPlace (change : Value → Place → Value) : Prop :=
  ∀ (h : Holding) u w step place, member? u step = some w → (h.after step).Admits w →
    member? (change u place) step = some (change w (step :: place))

variable {change : Value → Place → Value}

/-- What stands at a place of a changed schema is what stood there, changed. -/
theorem StaysInPlace.at?_eq (stays : StaysInPlace change) {v w : Value} {place : Place}
    (start : Place) (found : at? v place = some w) (admits : (holdingAt place).Admits w) :
    at? (change v start) place = some (change w (place ++ start)) := by
  induction place generalizing w with
  | nil =>
    cases found
    rfl
  | cons step rest ih =>
    obtain ⟨u, before, member⟩ := Option.bind_eq_some_iff.1 found
    rw [at?, ih before (Holding.admits_of_member member admits), Option.bind_some]
    exact stays (holdingAt rest) u w step _ member admits

/-- The data in a schema are kept where the change keeps each of them. -/
theorem keepsData_iff (stays : StaysInPlace change) (v : Value) (start : Place) :
    KeepsData v (change v start) ↔
      (∀ place w, holdingAt place = .datum → at? v place = some w →
        change w (place ++ start) = w) ∧
      ∀ place ps, holdingAt place = .properties → at? v place = some (.map ps) →
        ∃ ps', change (.map ps) (place ++ start) = .map ps' ∧ ps'.map (·.1) = ps.map (·.1) := by
  have datum : ∀ place w, holdingAt place = .datum → at? v place = some w →
      at? (change v start) place = some (change w (place ++ start)) := by
    intro place w holds found
    refine stays.at?_eq start found ?_
    rw [holds]
    trivial
  have properties : ∀ place ps, holdingAt place = .properties → at? v place = some (.map ps) →
      at? (change v start) place = some (change (.map ps) (place ++ start)) := by
    intro place ps holds found
    refine stays.at?_eq start found ?_
    rw [holds]
    trivial
  constructor
  · rintro ⟨data, names⟩
    refine ⟨fun place w holds found => ?_, fun place ps holds found => ?_⟩
    · have kept := data place w holds found
      rw [datum place w holds found] at kept
      exact Option.some.inj kept
    · obtain ⟨ps', there, same⟩ := names place ps holds found
      rw [properties place ps holds found] at there
      exact ⟨ps', Option.some.inj there, same⟩
  · rintro ⟨data, names⟩
    refine ⟨fun place w holds found => ?_, fun place ps holds found => ?_⟩
    · rw [datum place w holds found, data place w holds found]
    · obtain ⟨ps', changed, same⟩ := names place ps holds found
      exact ⟨ps', by rw [properties place ps holds found, changed], same⟩

end ClientGen.Document
