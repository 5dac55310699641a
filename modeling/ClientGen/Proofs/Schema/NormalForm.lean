import ClientGen.Proofs.Schema.DeclaredNull
import ClientGen.Proofs.Schema.Interfaces
import ClientGen.Proofs.Schema.Invariant
import ClientGen.Proofs.TypeExpr.Canonical
import ClientGen.Proofs.TypeExpr.Normal

/-!
# Lowered schemas are in normal form

Whatever a schema looks like, its type and the types in its declaration are in normal form
(`normalized_lowered`): each step of the lowering that makes a union or an intersection makes it
from types that are in normal form already, so that being in normal form is an invariant of the
lowering (`loweringInvariant_normalized`).

An interface that takes values under keys that are not listed has an index signature, and the type
of that has to admit what every property admits. It is a union of all these types, which opens them
into their members one level deep. In normal form no member of a union is a union itself, so nothing
is left to be opened (`mem_unionMembers_unionOf_of_normalized`), and the union has the members of
all of them (`index_admits_properties`).
-/

namespace ClientGen

namespace Schema

open Report (Yields)
open TypeExpr

theorem loweringInvariant_normalized (scope : Scope) : LoweringInvariant scope Normalized where
  primitive := normalized_primitive
  literal := normalized_literal
  component _ _ := normalized_named _
  array _ := normalized_array
  tuple _ := normalized_tuple
  object _ := normalized_object
  index key _ := normalized_index key
  union _ := normalized_unionOf
  inter _ := normalized_interOf

theorem lower_normalized (scope : Scope) (v : Value) : Yields Normalized (lower scope v) :=
  (loweringInvariant_normalized scope).lower v

/-- The types in the declaration of a schema are in normal form, the alias of a reference that names
no component included. -/
theorem declareWithin_normalized (scope : Scope) (typeName : String) (links : Nat) (stack : Stack)
    (firstHop : Option String) (v : Value) :
    Yields (fun d => ∀ t ∈ d.types, Normalized t)
      (declareWithin scope typeName links stack firstHop v) := by
  intro d ended
  have invariant := loweringInvariant_normalized scope
  rcases invariant.declareWithin typeName links (fun _ _ => normalized_named _)
    (fun _ _ => normalized_named _) v d ended with all | ⟨ref, rfl⟩
  · exact all
  · exact List.forall_mem_singleton.2 (normalized_named _)

/-! ### Types and declarations -/

/-- **What a schema is lowered to is in normal form.** In its type, and in all types in its
declaration, every union and every intersection at any depth has at least two members, in strictly
ascending order and none of them of its own form. -/
theorem normalized_lowered (scope : Scope) (schema : Value) :
    (∀ t, (lower scope schema).result = .ok t → Normalized t) ∧
      ∀ stack name d, (declare scope stack name schema).result = .ok d →
        ∀ t ∈ d.types, Normalized t :=
  ⟨lower_normalized scope schema, fun stack name =>
    declareWithin_normalized scope (Name.typeName name) scope.components.length
      (pushName stack name) none schema⟩

theorem normalized_lowered_of_pet :
    let word : Value := .map [(.str "type", .list [.str "string", .str "null"])]
    let whole : Value := .map [(.str "type", .str "integer")]
    let pet : Value := .map [(.str "properties", .map [(.str "name", word)]),
      (.str "additionalProperties", .map [(.str "oneOf", .list [word, whole])])]
    let type : TypeExpr := .inter [.object [⟨"name", .union [.string, .null], true, false⟩],
      .index "string" (.union [.string, .number, .null])]
    (lower ⟨[], 64⟩ pet).result = .ok type ∧ Normalized type ∧
      ∃ d, (declare ⟨[], 64⟩ [] "pet" pet).result = .ok d ∧
        d.types = [.union [.string, .null], .union [.string, .number, .null, .undefined]] ∧
        ∀ t ∈ d.types, Normalized t := by
  intro word whole pet type
  have lowered : (lower ⟨[], 64⟩ pet).result = .ok type := by decide +kernel
  have declared : (declare ⟨[], 64⟩ [] "pet" pet).result.map Declaration.types =
      .ok [.union [.string, .null], .union [.string, .number, .null, .undefined]] := by
    decide +kernel
  obtain ⟨typeNormal, declarationNormal⟩ := normalized_lowered ⟨[], 64⟩ pet
  refine ⟨lowered, typeNormal type lowered, ?_⟩
  cases ended : (declare ⟨[], 64⟩ [] "pet" pet).result with
  | error e =>
    rw [ended] at declared
    cases declared
  | ok d =>
    rw [ended] at declared
    exact ⟨d, rfl, Except.ok.inj declared, declarationNormal [] "pet" d ended⟩

end Schema

namespace TypeExpr

/-! ### Unions of types in normal form -/

theorem Normalized.unionMembers_ne_nil {t : TypeExpr} (h : Normalized t) : unionMembers t ≠ [] := by
  refine setForm_union.opened_ne_nil (P := IsNormal) (fun ms normal none => ?_)
    (everywhere_iff.1 h).1
  have several : 2 ≤ ms.length := normal.1
  rw [none] at several
  exact absurd several (by decide)

theorem holdsNoForm_of_normalized {ts : List TypeExpr} (normal : ∀ t ∈ ts, Normalized t) :
    HoldsNoForm union ts := by
  intro ms mem
  have top : NormalMembers union ms := (everywhere_iff.1 (normal _ mem)).1
  exact top.2.2

/-- The members of a union of types in normal form are the members of all of them. -/
theorem mem_unionMembers_unionOf_of_normalized {ts : List TypeExpr} {t : TypeExpr} (some : ts ≠ [])
    (normal : ∀ u ∈ ts, Normalized u) :
    t ∈ unionMembers (unionOf ts) ↔ ∃ u ∈ ts, t ∈ unionMembers u := by
  have opens : ts.flatMap unionMembers ≠ [] := by
    obtain ⟨u, mem⟩ := List.exists_mem_of_ne_nil ts some
    obtain ⟨v, member⟩ := List.exists_mem_of_ne_nil _ (normal u mem).unionMembers_ne_nil
    exact List.ne_nil_of_mem (List.mem_flatMap.2 ⟨u, mem, member⟩)
  rw [← List.mem_flatMap]
  exact mem_opened_buildOf setForm_union (holdsNoForm_of_normalized normal) opens

end TypeExpr

namespace Schema

open TypeExpr (Normalized unionMembers mem_unionMembers_unionOf_of_normalized normalized_primitive)
open Report (Yields yields_bind bind_result_eq_ok_iff)

/-! ### The type of an index signature -/

/-- Whether some property may be missing. -/
def HasOptional (ps : List Property) : Prop := ∃ p ∈ ps, p.isOptional = true

/-- The types that an index signature beside properties is made of. -/
theorem indexType_eq {ps : List Property} (some : ps ≠ []) (value : TypeExpr) :
    ∃ parts, Mapper.indexType ps value = .unionOf parts ∧
      ∀ u, u ∈ parts ↔ u = value ∨ (∃ p ∈ ps, p.type = u) ∨ u = .undefined ∧ HasOptional ps := by
  have nonempty : ps.isEmpty = false := by simpa using some
  refine ⟨_, by rw [Mapper.indexType, nonempty]; rfl, fun u => ?_⟩
  by_cases optional : ps.any (·.isOptional) = true
  · have has : HasOptional ps := List.any_eq_true.1 optional
    simp [optional, has]
  · have none : ¬HasOptional ps := fun has => optional (List.any_eq_true.2 has)
    simp [optional, none]

/-- The type of an index signature has the members of the type of its own values and of all
properties. `undefined` is a member of its own where a property may be missing. -/
theorem mem_unionMembers_indexType {ps : List Property} {value t : TypeExpr}
    (normal : Normalized value) (listed : ∀ p ∈ ps, Normalized p.type) :
    t ∈ unionMembers (Mapper.indexType ps value) ↔ t ∈ unionMembers value ∨
      (∃ p ∈ ps, t ∈ unionMembers p.type) ∨ t = .undefined ∧ HasOptional ps := by
  by_cases none : ps = []
  · subst none
    simp [Mapper.indexType, HasOptional]
  · obtain ⟨parts, type, mem⟩ := indexType_eq none value
    have parts_normal : ∀ u ∈ parts, Normalized u := by
      intro u part
      rcases (mem u).1 part with rfl | ⟨p, member, rfl⟩ | ⟨rfl, -⟩
      · exact normal
      · exact listed p member
      · exact normalized_primitive _
    have nonempty : parts ≠ [] := List.ne_nil_of_mem ((mem value).2 (.inl rfl))
    rw [type, mem_unionMembers_unionOf_of_normalized nonempty parts_normal]
    constructor
    · rintro ⟨u, part, member⟩
      rcases (mem u).1 part with rfl | ⟨p, property, rfl⟩ | ⟨rfl, optional⟩
      · exact .inl member
      · exact .inr (.inl ⟨p, property, member⟩)
      · exact .inr (.inr ⟨List.mem_singleton.1 member, optional⟩)
    · rintro (member | ⟨p, property, member⟩ | ⟨rfl, optional⟩)
      · exact ⟨value, (mem value).2 (.inl rfl), member⟩
      · exact ⟨p.type, (mem p.type).2 (.inr (.inl ⟨p, property, rfl⟩)), member⟩
      · exact ⟨.undefined, (mem _).2 (.inr (.inr ⟨rfl, optional⟩)), List.mem_singleton_self _⟩

/-! ### Interfaces -/

/-- **The index signature of an interface admits all its properties.** The interface is made of the
schema that references lead to, which is the schema itself if it is no reference. Where that gives
other keys a schema of their own, the type of the index signature has exactly the members of the
type of that schema and of the types of all properties, and `undefined` where one may be missing. -/
theorem index_admits_properties {scope : Scope} {name : String} {es : Entries} {c : Context}
    {i : Interface} (declared : (Mapper.declare scope name (.map es) c).1.result =
      .ok (.interface i)) :
    ∃ last, LeadsTo scope.components (pushName c.stack name) es last ∧
      (Entries.find? "$ref" es = none → last = es) ∧
      ∀ e fs, last.get "additionalProperties" = .map (e :: fs) → ∃ value admitted,
        (Mapper.map scope (.map (e :: fs)) c).1.result = .ok value ∧
        i.index = some ⟨"string", admitted⟩ ∧
        ∀ t, t ∈ unionMembers admitted ↔ t ∈ unionMembers value ∨
          (∃ p ∈ i.properties, t ∈ unionMembers p.type) ∨ t = .undefined ∧ HasOptional i.properties := by
  obtain ⟨last, leads, made⟩ := Mapper.declare_interface declared
  have normal (v : Value) : Yields Normalized (lowerWithin scope (Mapper.levelsLeft scope c) v) :=
    (loweringInvariant_normalized scope).lowerWithin _ v
  obtain ⟨listed, indexed⟩ := interfaceWith_yields normal i made
  refine ⟨last, leads, fun own => ((leadsTo_own_iff own).1 leads).2, fun e fs additional => ?_⟩
  rw [additional] at indexed
  obtain ⟨value, typed, index⟩ := bind_result_eq_ok_iff.1 indexed
  refine ⟨value, Mapper.indexType i.properties value, ?_, (Except.ok.inj index).symm, fun t => ?_⟩
  · rw [Mapper.runs_map]
    exact typed
  · exact mem_unionMembers_indexType (normal _ value typed) listed

/-- A schema of an object with a name, perhaps an age, and truth values under other keys. -/
def bag : Entries :=
  [(.str "type", .str "object"),
    (.str "properties", .map [(.str "name", .map [(.str "type", .str "string")]),
      (.str "age", .map [(.str "type", .str "integer")])]),
    (.str "required", .list [.str "name"]),
    (.str "additionalProperties", .map [(.str "type", .str "boolean")])]

/-- The interface of `bag`. -/
def bagInterface : Interface where
  name := "Bag"
  properties := [{ name := "name", type := .string },
    { name := "age", type := .number, isOptional := true }]
  index := some ⟨"string", .union [.string, .number, .boolean, .undefined]⟩

theorem index_admits_properties_of_bag :
    (Mapper.declare ⟨[], 64⟩ "Bag" (.map bag) {}).1.result = .ok (.interface bagInterface) ∧
      ∃ value admitted, (Mapper.map ⟨[], 64⟩ (.map [(.str "type", .str "boolean")]) {}).1.result =
          .ok value ∧
        bagInterface.index = some ⟨"string", admitted⟩ ∧
        ∀ t, t ∈ unionMembers admitted ↔ t ∈ unionMembers value ∨
          (∃ p ∈ bagInterface.properties, t ∈ unionMembers p.type) ∨
            t = .undefined ∧ HasOptional bagInterface.properties := by
  have declared : (Mapper.declare ⟨[], 64⟩ "Bag" (.map bag) {}).1.result =
      .ok (.interface bagInterface) := by
    decide +kernel
  obtain ⟨last, -, own, admits⟩ := index_admits_properties declared
  cases own rfl
  exact ⟨declared, admits _ _ rfl⟩

end Schema

end ClientGen
