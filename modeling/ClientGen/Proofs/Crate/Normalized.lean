import ClientGen.Proofs.Crate.Types
import ClientGen.Proofs.Document.Nullability
import ClientGen.Proofs.Report.Matching
import ClientGen.Proofs.Value.Json
import ClientGen.Proofs.Value.Keys

/-!
# Rust types after normalisation

`nullable` as a member of `type` is the same to the Rust types, which read both.

* `typesOf_normalized`: a schema lists the types that it listed, and takes `null` if it took it.
* `isWritable_normalize`: a value that is shown in a warning still can be shown.
* **Rust types are those of the schema before normalisation** (`typeOf_normalize`), by induction on
  the levels of nesting that are left.
-/

namespace ClientGen

namespace Document

open Value (isWritable allWritable allWritableEntries keysDiffer keysDifferInItems
  keysDifferInMembers)
open Value.IsJson (allWritable_iff allWritableEntries_iff)

variable (times : Value.Place → Nat)

theorem isWritable_unwrap (n : Nat) (v : Value) : (unwrap n v).isWritable = v.isWritable := by
  fun_induction unwrap n v with
  | case1 n v ih => rw [ih, isWritable, allWritable, allWritable, Bool.and_true]
  | case2 => rfl

theorem isWritable_unwrapType (place : Value.Place) (v : Value) :
    (unwrapType times place v).isWritable = v.isWritable := by
  unfold unwrapType
  split <;> exact isWritable_unwrap _ _

theorem isWritable_admitNull (v : Value) : (admitNull v).isWritable = v.isWritable := by
  unfold admitNull
  split
  · rfl
  · next items =>
    split
    · rfl
    · rw [isWritable, isWritable, Bool.eq_iff_iff, allWritable_iff, allWritable_iff]
      simp only [List.mem_append, List.mem_singleton, or_imp, forall_and, forall_eq]
      exact and_iff_left rfl
  · rfl

theorem allWritableEntries_updateEntry {name : String} {f : Value → Value}
    (h : ∀ v, (f v).isWritable = v.isWritable) (es : Entries) :
    allWritableEntries (updateEntry name f es) = allWritableEntries es := by
  rw [Bool.eq_iff_iff, allWritableEntries_iff, allWritableEntries_iff, updateEntry,
    List.forall_mem_map]
  refine forall₂_congr fun e _ => ?_
  split
  · rw [h]
  · rfl

/-- Leaving out an entry that is `true` leaves out no integer. -/
theorem allWritableEntries_erase {name : String} {es : Entries} (distinct : (es.map (·.1)).Nodup)
    (isTrue : (es.get name).isTrue = true) :
    allWritableEntries (es.erase name) = allWritableEntries es := by
  rw [Bool.eq_iff_iff, allWritableEntries_iff, allWritableEntries_iff, Entries.erase]
  constructor
  · intro others e mem
    by_cases here : e.1 = .str name
    · have found : es.find? name = some e.2 := Value.find?_of_mem distinct (by rwa [← here])
      rw [Entries.get, found, Option.getD_some] at isTrue
      rw [here]
      cases value : e.2 with
      | bool b => exact ⟨rfl, rfl⟩
      | _ =>
        rw [value] at isTrue
        cases isTrue
    · exact others e (List.mem_filter.2 ⟨mem, by simpa using here⟩)
  · exact fun all e mem => all e (List.mem_filter.1 mem).1

mutual

/-- Normalisation neither adds nor drops an integer that has too many digits. -/
theorem isWritable_normalize : ∀ {v : Value}, keysDiffer v = true → ∀ place,
    (normalize times v place).isWritable = v.isWritable
  | .map es, h, place => by
    rw [keysDiffer, Bool.and_eq_true, decide_eq_true_eq] at h
    have distinct : ((normalizeMembers times es place).map (·.1)).Nodup := by
      rw [map_fst_normalizeMembers]
      exact h.1
    have type : ∀ v, (unwrapType times place (admitNull v)).isWritable = v.isWritable := fun v => by
      rw [isWritable_unwrapType, isWritable_admitNull]
    rw [normalize, isWritable, isWritable, ← allWritable_normalizeMembers h.2 place,
      normalizeEntries]
    split
    · next moves =>
      rw [allWritableEntries_updateEntry type,
        allWritableEntries_erase distinct (isTrue_of_movesNull moves)]
    · rw [allWritableEntries_updateEntry (isWritable_unwrapType times place)]
  | .list items, h, place => by
    rw [keysDiffer] at h
    rw [normalize, isWritable, isWritable, allWritable_normalizeItems h]
  | .null, _, _ => rfl
  | .bool _, _, _ => rfl
  | .int _, _, _ => rfl
  | .float _, _, _ => rfl
  | .str _, _, _ => rfl
  | .other _, _, _ => rfl
  | .pair _ _, _, _ => rfl
  | .set _, _, _ => rfl
  | .loop _, _, _ => rfl

theorem allWritable_normalizeItems : ∀ {items : List Value}, keysDifferInItems items = true →
    ∀ index place, allWritable (normalizeItems times items index place) = allWritable items
  | [], _, _, _ => rfl
  | v :: rest, h, index, place => by
    rw [keysDifferInItems, Bool.and_eq_true] at h
    rw [normalizeItems, allWritable, allWritable, isWritable_normalize h.1,
      allWritable_normalizeItems h.2]

theorem allWritable_normalizeMembers : ∀ {es : Entries}, keysDifferInMembers es = true →
    ∀ place, allWritableEntries (normalizeMembers times es place) = allWritableEntries es
  | [], _, _ => rfl
  | (k, v) :: rest, h, place => by
    rw [keysDifferInMembers, Bool.and_eq_true] at h
    rw [normalizeMembers, allWritableEntries, allWritableEntries, isWritable_normalize h.1,
      allWritable_normalizeMembers h.2]

end

end Document

namespace Crate

open Document (admitNull normalize normalized normalize_map isTyped movesNull wordsOf areWords)
open Schema (Components Throughout)
open Value (keysDiffer)

variable (times : Value.Place → Nat)

/-! ### Types -/

/-- The types among words, and whether `null` is among them or admitted apart. -/
def listedTypes (words : List String) (nullable : Bool) : List String × Bool :=
  (words.filter (· != "null"), words.contains "null" || nullable)

theorem typesOf_of_typed {es : Entries} (typed : isTyped es = true) :
    typesOf es = pure (listedTypes (wordsOf (es.get "type")) (es.get "nullable").isTrue) := by
  rw [isTyped] at typed
  rw [typesOf, Entries.get]
  cases found : es.find? "type" with
  | none => rfl
  | some v =>
    rw [found] at typed
    cases v with
    | str s => rfl
    | list items => cases items <;> rfl
    | _ => cases typed

theorem filter_append_null (words : List String) :
    (words ++ ["null"]).filter (· != "null") = words.filter (· != "null") := by
  rw [List.filter_append]
  exact List.append_nil _

theorem listedTypes_admitNull {v : Value} (words : areWords v = true) :
    listedTypes (wordsOf (admitNull v)) false = listedTypes (wordsOf v) true := by
  have null : (wordsOf (admitNull v)).contains "null" = true :=
    List.contains_iff_mem.2 (((Document.admitNull_words words).2 "null").2 (by simp))
  rw [listedTypes, listedTypes, null, Bool.or_true, Bool.true_or]
  congr 1
  cases v with
  | str s => exact filter_append_null [s]
  | list items =>
    rw [admitNull]
    split
    · rfl
    · rw [wordsOf, wordsOf, List.filterMap_append]
      exact filter_append_null _
  | _ => cases words

/-- Normalisation keeps the types that a schema lists, and whether it takes `null`. -/
theorem typesOf_normalized {es : Entries} (typed : isTyped es = true) (place : Value.Place) :
    typesOf (normalized times es place) = typesOf es := by
  have type := Document.find?_type_normalized times place typed
  have nullable := Document.isTrue_nullable_normalized times es place
  cases found : es.find? "type" with
  | none =>
    have stays : movesNull es = false := by
      rw [movesNull, Entries.has, found, Option.isSome_none, Bool.and_false]
    rw [found, Option.map_none] at type
    rw [stays, Bool.not_false, Bool.and_true] at nullable
    have before : es.get "type" = .null := by rw [Entries.get, found, Option.getD_none]
    have after : (normalized times es place).get "type" = .null := by
      rw [Entries.get, type, Option.getD_none]
    rw [typesOf, typesOf, before, after, nullable]
  | some v =>
    have words : areWords v = true := by
      rw [isTyped, found] at typed
      exact typed
    rw [found, Option.map_some] at type
    have admitted : areWords (if movesNull es then admitNull v else v) = true := by
      split
      · exact (Document.admitNull_words words).1
      · exact words
    obtain ⟨unwrapped, same⟩ := Document.unwrapType_words times place admitted
    have typed' : isTyped (normalized times es place) = true := by
      rw [isTyped, type]
      exact unwrapped
    have before : es.get "type" = v := by rw [Entries.get, found, Option.getD_some]
    have after : wordsOf ((normalized times es place).get "type") =
        wordsOf (if movesNull es then admitNull v else v) := by
      rw [Entries.get, type, Option.getD_some, same]
    rw [typesOf_of_typed typed, typesOf_of_typed typed', nullable, before, after]
    cases moves : movesNull es with
    | true =>
      rw [if_pos rfl, Bool.not_true, Bool.and_false, Document.isTrue_of_movesNull moves,
        listedTypes_admitNull words]
    | false => rw [if_neg Bool.false_ne_true, Bool.not_false, Bool.and_true]

theorem typeOfConst_normalize (v : Value) (place : Value.Place) :
    typeOfConst (normalize times v place) = typeOfConst v := by
  cases v <;> rfl

theorem scalarType_normalize (type : String) (v : Value) (place : Value.Place) :
    scalarType type (normalize times v place) = scalarType type v := by
  cases v <;> rfl

theorem impliedType?_normalized (es : Entries) (place : Value.Place) :
    impliedType? (normalized times es place) = impliedType? es := by
  rw [impliedType?, impliedType?, Document.has_normalized times es place (by decide),
    Document.has_normalized times es place (by decide),
    Document.has_normalized times es place (by decide)]

theorem typesLeft_normalized (es : Entries) (place : Value.Place) (listed : List String) :
    typesLeft (normalized times es place) listed = typesLeft es listed := by
  unfold typesLeft
  rw [Document.find?_normalized times es place (by decide) (by decide)]
  cases listed with
  | cons type types => rfl
  | nil =>
    cases es.find? "const" with
    | none => rfl
    | some v =>
      rw [Option.map_some]
      exact congrArg List.singleton (typeOfConst_normalize times v _)

/-! ### References -/

theorem typeOfRef_normalize (components : Components) {ref : Value}
    (distinct : keysDiffer ref = true) (place : Value.Place) :
    (typeOfRef components (normalize times ref place)).result =
      (typeOfRef components ref).result := by
  cases text : ref.str? with
  | some s =>
    cases ref with
    | str s => rfl
    | _ => cases text
  | none =>
    have text' : (normalize times ref place).str? = none := by rwa [Document.str?_normalize]
    rw [typeOfRef_of_untext text, typeOfRef_of_untext text',
      Document.isWritable_normalize times distinct]

/-! ### Schemas -/

section Schemas

variable {times} {sub : Value → Lowering RustType} {es : Entries}
  (below : ∀ name, name = "items" ∨ name = "additionalProperties" → ∀ place,
    (sub (normalize times (es.get name) place)).result = (sub (es.get name)).result)
  (place : Value.Place)

include below

theorem typeOfSingle_normalized (type : Option String) :
    (typeOfSingle sub (normalized times es place) type).result =
      (typeOfSingle sub es type).result := by
  unfold typeOfSingle
  split
  case h_1 =>
    rw [Document.get_normalized times es place (by decide) (by decide)]
    have inside := below "items" (.inl rfl)
    cases items : es.get "items" with
    | map items =>
      rw [items] at inside
      exact Report.bind_result_congr (inside _) fun _ => rfl
    | _ => rfl
  case h_2 =>
    rw [Document.get_normalized times es place (by decide) (by decide),
      Document.get_normalized times es place (by decide) (by decide),
      ← Document.truthy_normalize]
    have inside := below "additionalProperties" (.inr rfl)
    cases (es.get "properties").truthy with
    | true => rfl
    | false =>
      cases additional : es.get "additionalProperties" with
      | map additional =>
        rw [additional] at inside
        exact Report.bind_result_congr (inside _) fun _ => rfl
      | _ => rfl
  case h_3 type _ _ =>
    rw [Document.get_normalized times es place (by decide) (by decide), scalarType_normalize]
  case h_4 => rfl

theorem typeOfTypes_normalized (types : List String) (nullable : Bool) :
    (typeOfTypes sub (normalized times es place) types nullable).result =
      (typeOfTypes sub es types nullable).result := by
  unfold typeOfTypes
  split
  · rfl
  · rw [impliedType?_normalized]
    exact Report.bind_result_congr (typeOfSingle_normalized below place _) fun _ => rfl

theorem typeOfEntries_normalized (components : Components) (typed : isTyped es = true)
    (distinct : keysDiffer (.map es) = true) :
    (typeOfEntries components sub (normalized times es place)).result =
      (typeOfEntries components sub es).result := by
  have ref : (normalized times es place).find? "$ref" =
      (es.find? "$ref").map fun v => normalize times v (.entry (.str "$ref") :: place) :=
    Document.find?_normalized times es place (by decide) (by decide)
  cases found : es.find? "$ref" with
  | some v =>
    rw [found, Option.map_some] at ref
    have differ := Value.keysDiffer_get distinct "$ref"
    rw [Entries.get, found, Option.getD_some] at differ
    rw [typeOfEntries_of_ref ref, typeOfEntries_of_ref found, typeOfRef_normalize times _ differ]
  | none =>
    rw [found, Option.map_none] at ref
    have composed := Document.isComposed_normalized times es place
    cases before : Schema.isComposed es with
    | true =>
      rw [before] at composed
      rw [typeOfEntries_of_composed ref composed, typeOfEntries_of_composed found before]
    | false =>
      rw [before] at composed
      rw [typeOfEntries_of_plain ref composed, typeOfEntries_of_plain found before,
        typesOf_normalized times typed]
      refine Report.bind_result_congr rfl fun read => ?_
      rw [typesLeft_normalized, typeOfTypes_normalized below]

end Schemas

theorem typeWithin_normalize (components : Components) (left : Nat) {v : Value}
    (typed : Throughout (fun es => isTyped es = true) v) (distinct : keysDiffer v = true)
    (place : Value.Place) : (typeWithin components left (normalize times v place)).result =
      (typeWithin components left v).result := by
  induction left generalizing v place with
  | zero =>
    cases v with
    | map es =>
      rw [normalize_map, typeWithin, typeWithin]
    | _ => rfl
  | succ left ih =>
    cases v with
    | map es =>
      rw [normalize_map, typeWithin, typeWithin]
      refine typeOfEntries_normalized (fun name part place => ?_) place components typed.here
        distinct
      refine ih (typed.get_schema ?_) (Value.keysDiffer_get distinct name) place
      rcases part with rfl | rfl <;> rfl
    | _ => rfl

/-- **Rust types are those of the schema before normalisation.** Where every `type` is a text or a
list of texts, a schema has the Rust type that it had before. -/
theorem typeOf_normalize (components : Components) (S : Value)
    (typed : Throughout (fun es => isTyped es = true) S) (distinct : keysDiffer S = true)
    (place : Value.Place) : (typeOf components (normalize times S place)).result =
      (typeOf components S).result :=
  typeWithin_normalize times components deepest typed distinct place

theorem typeOf_normalize_of_pets :
    let tag : Value := .map [(.str "type", .list [.str "string"]), (.str "nullable", .bool true)]
    let pets : Value := .map [(.str "type", .list []), (.str "nullable", .bool true),
      (.str "items", tag)]
    Throughout (fun es => isTyped es = true) pets ∧ keysDiffer pets = true ∧
      (typeOf [] (normalize (fun _ => 1) pets [])).result = (typeOf [] pets).result ∧
      (typeOf [] pets).result = .ok (.option (.vec (.option (.builtin "String")))) := by
  intro tag pets
  have typed : ∀ es ∈ Schema.schemasIn pets, isTyped es = true := by decide
  have distinct : keysDiffer pets = true := by decide
  exact ⟨typed, distinct, typeOf_normalize (fun _ => 1) [] pets typed distinct [], rfl⟩

end Crate

end ClientGen
