import ClientGen.Proofs.Schema.DepthLimit
import ClientGen.Proofs.Schema.Declarable
import ClientGen.Proofs.Schema.Interfaces

/-!
# Interfaces and object types

An object schema that says nothing but which properties there are becomes an interface where it has
a name, and an object type where it has none. The interface is made one level of nesting higher.

* **Levels that are not used make no difference** (`lowerWithin_of_silent`): where lowering gives no
  warning that schemas are nested too deep, more levels change nothing. So the types of properties
  may be given one level higher.
* **Both have the same members** (`declared_as_mapped`), in the same order, and one of them is there
  exactly if the other one is. Neither is there where the names that are required cannot be read
  (`required_object_fails`).
-/

namespace ClientGen.Schema

open Value (IsJson)
open Mapping (Silent Agrees Runs)
open Report (Matches Returns bind_pure_result_eq_ok_iff)

/-! ### Levels that are not used -/

theorem withinLimit_of_notes_eq_nil {α : Type} {r : Lowering α} (none : r.notes = []) :
    WithinLimit r := by
  intro limit
  rw [none]
  exact List.not_mem_nil

section Levels

variable {scope : Scope} {levels levels' : Nat}

/-- What two steps do that agree is the same up to the notes of a kind. -/
theorem eq_of_agrees {α : Type} {noted : Note → Prop} {c : Context} {x y : Mapping α}
    {r r' : Lowering α} (h : Agrees noted c x y) (runs : Runs x c r) (runs' : Runs y c r')
    (silent : Silent noted r) : r' = r := by
  have quiet : Silent noted (x c).1 := by
    rw [runs]
    exact silent
  exact congrArg Prod.fst (runs'.symm.trans ((h.same quiet).trans runs))

/-- It makes no difference how the schemas in a schema are given their types, where both ways do the
same up to the warning. -/
theorem lowerEntries_of_silent {sub sub' : Value → Lowering TypeExpr} {es : Entries}
    (same : ∀ v, Silent IsDepthWarning (sub v) → sub' v = sub v)
    (silent : Silent IsDepthWarning (lowerEntries sub scope es)) :
    lowerEntries sub' scope es = lowerEntries sub scope es := by
  have nested (v : Value) : Agrees IsDepthWarning {} (Mapping.report (sub v))
      (Mapping.report (sub' v)) := by
    refine .of_runs (.report _) fun silent => ?_
    rw [same v silent]
    exact .report _
  exact eq_of_agrees (Mapper.agrees_entries (fun v _ => nested v) _ _ _)
    (Mapper.runs_entries (fun v => .report (sub v)) scope es)
    (Mapper.runs_entries (fun v => .report (sub' v)) scope es) silent

theorem lowerWithin_of_silent (le : levels ≤ levels') {v : Value}
    (silent : Silent IsDepthWarning (lowerWithin scope levels v)) :
    lowerWithin scope levels' v = lowerWithin scope levels v := by
  induction levels generalizing levels' v with
  | zero =>
    cases v with
    | map es => exact absurd ⟨_, rfl⟩ (silent _ (List.mem_singleton_self _))
    | bool b => cases b <;> cases levels' <;> rfl
    | _ => cases levels' <;> rfl
  | succ levels ih =>
    obtain ⟨more, rfl⟩ := Nat.exists_eq_add_of_le' le
    cases v with
    | map es =>
      have here : Silent IsDepthWarning (lowerEntries (lowerWithin scope levels) scope es) :=
        silent.of_bind.1
      have same : lowerEntries (lowerWithin scope (more + levels)) scope es =
          lowerEntries (lowerWithin scope levels) scope es :=
        lowerEntries_of_silent (fun v => ih (Nat.le_add_left levels more)) here
      rw [Nat.add_succ, lowerWithin, lowerWithin, same]
    | bool b => cases b <;> rfl
    | _ => rfl

end Levels

/-! ### Object schemas with nothing but properties -/

/-- The keywords that make something else of an object schema, or more. -/
def otherKeywords : List String :=
  ["$ref", "const", "enum", "nullable", "additionalProperties"] ++ compositionKeywords

/-- Whether a schema is about objects and lists properties, and has no keyword that makes something
else of it. -/
structure IsPlainObject (es ps : Entries) : Prop where
  types : typesOf es = .ok [] ∨ typesOf es = .ok ["object"]
  properties : es.get "properties" = .map ps
  nonempty : ps ≠ []
  absent : ∀ keyword ∈ otherKeywords, Entries.find? keyword es = none

/-- A property of an interface as a property of an object type. -/
def Property.member (p : Property) : Member TypeExpr :=
  ⟨p.name, p.type, p.isOptional, p.isReadonly⟩

section Plain

variable {scope : Scope} {typed : Value → Lowering TypeExpr} {typeName : String} {es ps : Entries}
  (plain : IsPlainObject es ps)

include plain

theorem IsPlainObject.get_eq_null {keyword : String} (mem : keyword ∈ otherKeywords) :
    es.get keyword = .null := by
  rw [Entries.get, plain.absent keyword mem]
  rfl

theorem IsPlainObject.isComposed : isComposed es = false := by
  rw [Schema.isComposed, List.any_eq_false]
  intro keyword mem
  rw [Entries.has, plain.absent keyword (List.mem_append_right _ mem)]
  exact Bool.false_ne_true

theorem IsPlainObject.hasProperties : es.has "properties" = true := by
  have properties := plain.properties
  rw [Entries.get] at properties
  rw [Entries.has]
  cases found : Entries.find? "properties" es with
  | none =>
    rw [found] at properties
    cases properties
  | some v => rfl

theorem IsPlainObject.impliedTypes : impliedTypes es = .ok ["object"] := by
  rw [Schema.impliedTypes]
  rcases plain.types with none | object
  · rw [none]
    simp [plain.hasProperties, bind, Except.bind, pure, Except.pure]
  · rw [object]
    rfl

theorem IsPlainObject.isInterface : isInterface es = .ok true := by
  rw [Schema.isInterface, plain.isComposed, isObject, plain.properties]
  obtain ⟨p, rest, rfl⟩ := List.exists_cons_of_ne_nil plain.nonempty
  rcases plain.types with none | object
  · rw [none]
    simp [plain.hasProperties, bind, Except.bind, pure, Except.pure, Value.truthy]
  · rw [object]
    rfl

/-- Such a schema is read as an object and as nothing else. -/
theorem IsPlainObject.lowerEntries_eq : lowerEntries typed scope es = do
    return .unionOf [← lowerObject typed es] := by
  have noRef : (es.get "$ref").str? = none := by rw [plain.get_eq_null (by decide)]; rfl
  have noLiterals : literalsOf es = [] := by
    rw [literalsOf, plain.absent "const" (by decide), plain.get_eq_null (by decide)]
    rfl
  rw [Schema.lowerEntries_eq, noRef]
  dsimp only
  rw [lowerUnreferred, noLiterals]
  dsimp only
  rw [lowerOpen, plain.isComposed, plain.impliedTypes, if_neg Bool.false_ne_true]
  have object : eachOf (lowerSingle typed es) ["object"] = do return [← lowerObject typed es] := rfl
  have types : (Report.ofText (.ok ["object"]) : Lowering (List String)) = pure ["object"] := rfl
  rw [types, pure_bind]
  dsimp only
  rw [object, bind_assoc]
  simp only [pure_bind]

omit plain in
theorem propertyWith_matches (required : List Key) (p : Key × Value) :
    Matches (fun m q => m = Property.member q)
      (do
        let name ← Report.ofText p.1.shown
        let type ← typed p.2
        return ⟨name, type, !isRequired required p.1, isReadOnly p.2⟩ : Lowering (Member TypeExpr))
      (propertyWith typed required p) := by
  refine (Matches.refl _).bind fun name name' same => ?_
  refine (Matches.refl _).bind fun type type' same' => .pure ?_
  rw [same, same', Property.member]

/-- The properties of the interface and of the object type. There are some. -/
theorem IsPlainObject.lowerMembers_matches (required : List Key) :
    Matches (fun ms qs => ms = qs.map Property.member ∧ ms ≠ []) (lowerMembers typed required ps)
      (eachOf (propertyWith typed required) ps) := by
  obtain ⟨p, rest, rfl⟩ := List.exists_cons_of_ne_nil plain.nonempty
  refine (propertyWith_matches required p).bind fun m q first => ?_
  refine Matches.bind (r := fun ms qs => ms = qs.map Property.member) ?_ fun ms qs others => ?_
  · refine (eachOf_matches (r := fun m q => m = Property.member q) ?_).mono fun ms qs each => ?_
    · exact List.forall₂_same.2 fun p _ => propertyWith_matches required p
    · rwa [← List.forall₂_eq_eq_eq, List.forall₂_map_right_iff]
  · exact .pure ⟨by rw [first, others, List.map_cons], List.cons_ne_nil _ _⟩

/-- The interface and the object type have the same members, if each schema in them is given the
same type in both. -/
theorem IsPlainObject.matches_interfaceWith :
    Matches (fun t i => t = .object (i.properties.map Property.member) ∧ i.index = none)
      (lowerEntries typed scope es) (interfaceWith typed typeName es) := by
  have noOthers : es.get "additionalProperties" = .null := plain.get_eq_null (by decide)
  have entries : propertyEntries? (es.get "properties") = some ps := by
    rw [plain.properties]
    obtain ⟨p, rest, rfl⟩ := List.exists_cons_of_ne_nil plain.nonempty
    rfl
  have read : (Report.ofOption (some ps) : Lowering Entries) = pure ps := rfl
  have noValues : lowerAdditional typed .null = pure none := rfl
  rw [plain.lowerEntries_eq, lowerObject, interfaceWith, noOthers, entries, read, noValues,
    bind_assoc]
  refine (Matches.refl _).bind fun required required' same => ?_
  subst same
  rw [pure_bind, pure_bind, bind_assoc]
  refine (plain.lowerMembers_matches required).bind fun ms qs listed => ?_
  obtain ⟨same, nonempty⟩ := listed
  obtain ⟨m, rest, cons⟩ := List.exists_cons_of_ne_nil nonempty
  subst cons
  have noIndex : indexWith typed qs .null = pure none := rfl
  rw [pure_bind, pure_bind, noIndex, pure_bind]
  exact .pure ⟨(TypeExpr.unionOf_singleton rfl).trans (congrArg TypeExpr.object same), rfl⟩

/-- Where no level is missing, the properties may be given all the levels that the schema has. -/
theorem IsPlainObject.lowerWithin_eq {levels : Nat}
    (unhit : WithinLimit (lowerWithin scope levels (.map es))) :
    lowerWithin scope levels (.map es) = lowerEntries (lowerWithin scope levels) scope es := by
  cases levels with
  | zero => exact absurd (List.mem_singleton_self _) (unhit scope.maxDepth)
  | succ levels =>
    have alone : lowerWithin scope (levels + 1) (.map es) =
        lowerEntries (lowerWithin scope levels) scope es := by
      have notNullable : (es.get "nullable").isTrue = false := by
        rw [plain.get_eq_null (by decide)]
        rfl
      simp [lowerWithin, notNullable]
    have silent := unhit.silent
    rw [alone] at silent ⊢
    exact (lowerEntries_of_silent (fun v => lowerWithin_of_silent (Nat.le_succ levels)) silent).symm

/-- Such a schema is declared as an interface. -/
theorem IsPlainObject.ownWith_eq : ownWith typed typeName es = do
    return .interface (← interfaceWith typed typeName es) := by
  have unlisted : enumValues? es = none := by
    rw [enumValues?, plain.get_eq_null (by decide)]
  have interfaced : (Report.ofText (.ok true) : Lowering Bool) = pure true := rfl
  rw [ownWith, unlisted]
  dsimp only
  rw [plain.isInterface, interfaced, pure_bind, if_pos rfl]

end Plain

/-- **An interface has the members of the object type.** Let a schema be about objects and list
properties, with no keyword that makes something else of it, in a context where its type is given
without the warning that schemas are nested too deep. Then it is declared exactly if it has a type
(and the property that tells its variants apart has a text, if there is one). What is declared is an
interface without an index signature, and the type is an object type with the same properties in the
same order. Where the schema is JSON it has both exactly if each schema in it that is read as an
object lists its members. -/
theorem declared_as_mapped {scope : Scope} {name : String} {es ps : Entries} {c : Context}
    (plain : IsPlainObject es ps) (unhit : WithinLimit (Mapper.map scope (.map es) c).1) :
    (Returns (Mapper.declare scope name (.map es) c).1 ↔
      NamesVariants es ∧ Returns (Mapper.map scope (.map es) c).1) ∧
    (∀ t d, (Mapper.map scope (.map es) c).1.result = .ok t →
      (Mapper.declare scope name (.map es) c).1.result = .ok d →
      ∃ i, d = .interface i ∧ i.index = none ∧ t = .object (i.properties.map Property.member)) ∧
    (IsJson (.map es) → NamesVariants es ∧ (Returns (Mapper.map scope (.map es) c).1 ↔
      ∀ fs ∈ schemasRead (Mapper.levelsLeft scope c) (.map es),
        isReadAsObject fs = true → listsMembers fs = true)) := by
  have run : (Mapper.map scope (.map es) c).1 =
      lowerWithin scope (Mapper.levelsLeft scope c) (.map es) :=
    congrArg Prod.fst (Mapper.runs_map scope c (.map es))
  rw [run] at unhit ⊢
  have own : Entries.find? "$ref" es = none := plain.absent _ (by decide)
  have declared (d : Declaration) : (Mapper.declare scope name (.map es) c).1.result = .ok d ↔
      NamesVariants es ∧ ∃ i, (interfaceWith (lowerWithin scope (Mapper.levelsLeft scope c))
        (Name.typeName name) es).result = .ok i ∧ d = .interface i := by
    rw [Mapper.declare_own_iff own, plain.ownWith_eq, bind_pure_result_eq_ok_iff]
  have same : Matches (fun t i => t = .object (i.properties.map Property.member) ∧ i.index = none)
      (lowerWithin scope (Mapper.levelsLeft scope c) (.map es))
      (interfaceWith (lowerWithin scope (Mapper.levelsLeft scope c)) (Name.typeName name) es) := by
    rw [plain.lowerWithin_eq unhit]
    exact plain.matches_interfaceWith
  refine ⟨⟨?_, ?_⟩, fun t d mapped ended => ?_, fun json => ?_⟩
  · rintro ⟨d, ended⟩
    obtain ⟨noted, i, made, -⟩ := (declared d).1 ended
    obtain ⟨t, mapped, -⟩ := same.symm.exists_ok made
    exact ⟨noted, t, mapped⟩
  · rintro ⟨noted, t, mapped⟩
    obtain ⟨i, made, -⟩ := same.exists_ok mapped
    exact ⟨.interface i, (declared _).2 ⟨noted, i, made, rfl⟩⟩
  · obtain ⟨-, i, made, rfl⟩ := (declared d).1 ended
    obtain ⟨j, made', members, noIndex⟩ := same.exists_ok mapped
    cases made.symm.trans made'
    exact ⟨i, rfl, noIndex, members⟩
  · exact ⟨namesVariants_of_isJson json, returns_lowerWithin_iff scope json⟩

/-- The properties of an object with a number that is given to it and a name. -/
def petProperties : Entries :=
  [(.str "id", .map [(.str "type", .str "integer"), (.str "readOnly", .bool true)]),
    (.str "name", .map [(.str "type", .str "string")])]

/-- A schema of an object with `petProperties`, and with this under `required`. -/
def petRequiring (required : Value) : Entries :=
  [(.str "type", .str "object"), (.str "properties", .map petProperties),
    (.str "required", required)]

theorem isPlainObject_petRequiring (required : Value) :
    IsPlainObject (petRequiring required) petProperties where
  types := .inr rfl
  properties := rfl
  nonempty := List.cons_ne_nil _ _
  absent keyword mem := by
    simp only [otherKeywords, compositionKeywords, List.cons_append, List.nil_append,
      List.mem_cons, List.not_mem_nil, or_false] at mem
    rcases mem with rfl | rfl | rfl | rfl | rfl | rfl | rfl | rfl <;> rfl

theorem declared_as_mapped_of_pet :
    let es := petRequiring (.list [.str "name"])
    let ms : List (Member TypeExpr) := [⟨"id", .number, true, true⟩, ⟨"name", .string, false, false⟩]
    IsPlainObject es petProperties ∧ WithinLimit (Mapper.map ⟨[], 64⟩ (.map es) {}).1 ∧
      (Mapper.map ⟨[], 64⟩ (.map es) {}).1.result = .ok (.object ms) ∧
      ∃ i, (Mapper.declare ⟨[], 64⟩ "Pet" (.map es) {}).1.result = .ok (.interface i) ∧
        i.index = none ∧ i.properties.map Property.member = ms := by
  intro es ms
  have plain : IsPlainObject es petProperties := isPlainObject_petRequiring _
  have unhit : WithinLimit (Mapper.map ⟨[], 64⟩ (.map es) {}).1 := withinLimit_of_notes_eq_nil rfl
  have mapped : (Mapper.map ⟨[], 64⟩ (.map es) {}).1.result = .ok (.object ms) := by decide +kernel
  obtain ⟨returns, members, -⟩ :
      (Returns (Mapper.declare ⟨[], 64⟩ "Pet" (.map es) {}).1 ↔ _) ∧ _ ∧ _ :=
    declared_as_mapped plain unhit
  obtain ⟨d, ended⟩ := returns.2 ⟨nofun, _, mapped⟩
  obtain ⟨i, rfl, noIndex, same⟩ := members _ d mapped ended
  exact ⟨plain, unhit, mapped, i, ended, noIndex, (TypeExpr.object.inj same).symm⟩

/-- Where an object says of itself that it is required, it has neither: the names of the properties
that are required are read unchecked. -/
theorem required_object_fails :
    let es := petRequiring (.bool true)
    IsPlainObject es petProperties ∧ IsJson (.map es) ∧
      WithinLimit (Mapper.map ⟨[], 64⟩ (.map es) {}).1 ∧
      WithinLimit (Mapper.declare ⟨[], 64⟩ "Pet" (.map es) {}).1 ∧
      (Mapper.map ⟨[], 64⟩ (.map es) {}).1.result = .error .malformed ∧
      (Mapper.declare ⟨[], 64⟩ "Pet" (.map es) {}).1.result = .error .malformed := by
  intro es
  refine ⟨isPlainObject_petRequiring _, ?_, withinLimit_of_notes_eq_nil rfl,
    withinLimit_of_notes_eq_nil ?_, ?_, ?_⟩
  · simp [es, petRequiring, petProperties]
  · rw [Mapper.declare_eq]
    rfl
  · rfl
  · rw [Mapper.declare_eq]
    rfl

end ClientGen.Schema
