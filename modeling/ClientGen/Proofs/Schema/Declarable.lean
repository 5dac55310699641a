import ClientGen.Proofs.Schema.DeclaredNull
import ClientGen.Proofs.Schema.Following
import ClientGen.Proofs.Schema.Returns

/-!
# Which schemas have a declaration

A schema of JSON that is no reference is declared exactly if the members that its interface needs,
or the type that its alias needs, can be read (`IsDeclarable`). A reference is declared exactly if
the schema that it leads to is, through however many references (`returns_declareWithin_iff`): where
it leads to none, the alias that stands for it always is.
-/

namespace ClientGen.Schema

open Value (IsJson)
open Report (Returns ofText_result_eq_ok_iff returns_pure returns_bind_iff returns_bind_iff_and
  returns_bind_pure_iff)

/-! ### Schemas that are no references -/

/-- Whether a schema that is no reference can be declared. As an enumeration it always can. -/
structure IsDeclarable (scope : Scope) (es : Entries) : Prop where
  interface : enumValues? es = none → isInterface es = .ok true →
    listsMembers es = true ∧ ∀ part ∈ objectParts es, Returns (lower scope part)
  typed : enumValues? es = none → isInterface es = .ok false → Returns (lower scope (.map es))

theorem returns_variantsAfter {values : List Value} (values_json : ∀ v ∈ values, IsJson v)
    (used : List String) : Returns (variantsAfter used values) := by
  induction values generalizing used with
  | nil => exact returns_pure _
  | cons value rest ih =>
    obtain ⟨json, others⟩ := List.forall_mem_cons.1 values_json
    obtain ⟨base, named⟩ := json.memberText
    obtain ⟨text, written⟩ := json.enumValueText
    refine returns_bind_iff.2 ⟨base, ofText_result_eq_ok_iff.2 named, ?_⟩
    refine returns_bind_iff.2 ⟨text, ofText_result_eq_ok_iff.2 written, ?_⟩
    exact returns_bind_pure_iff.2 (ih others _)

section Json

variable {scope : Scope} {typeName : String} {es : Entries} (json : IsJson (.map es))

include json

theorem isJson_of_enumValues? {values : List Value} (listed : enumValues? es = some values) :
    ∀ v ∈ values, IsJson v := by
  have enum := json.get "enum"
  rw [enumValues?] at listed
  generalize es.get "enum" = v at enum listed
  cases enum with
  | list items_json =>
    dsimp only at listed
    split at listed
    · cases listed
    · cases listed
      exact fun v mem => items_json v (List.mem_filter.1 mem).1
  | _ => cases listed

theorem exists_isInterface : ∃ interfaced, isInterface es = .ok interfaced := by
  obtain ⟨types, read⟩ := exists_typesOf json
  rw [isInterface, isObject, read]
  split
  · exact ⟨_, rfl⟩
  · cases types <;> exact ⟨_, rfl⟩

theorem returns_declareInterface_iff : Returns (declareInterface scope typeName es) ↔
    listsMembers es = true ∧ ∀ part ∈ objectParts es, Returns (lower scope part) := by
  refine returns_members_iff json fun required ps read => ?_
  have index (properties : List Property) (v : Value) :
      Returns (interfaceIndex scope properties v) ↔
        ∀ part ∈ additionalParts v, Returns (lower scope part) := by
    refine returns_additional_iff (fun v none => ?_) (fun e fs => ?_) v
    · unfold interfaceIndex
      split
      · exact returns_pure _
      · exact returns_pure _
      · next es some =>
        cases es with
        | nil => exact absurd rfl some
        | cons e fs => cases none
      · exact returns_pure _
    · refine (returns_bind_iff_and fun value => iff_true_intro ?_).trans (and_iff_left trivial)
      dsimp only
      split <;> exact returns_pure _
  rw [objectParts, List.forall_mem_append]
  refine (returns_bind_iff_and fun properties => ?_).trans
    (and_congr_left' (returns_properties_iff json (fun s v => ?property) read))
  case property =>
    refine (returns_bind_iff_and fun name => returns_bind_pure_iff).trans ?_
    exact and_iff_right ⟨s, rfl⟩
  rw [returns_bind_pure_iff, index]

theorem returns_declareOwn_iff :
    Returns (declareOwn scope typeName es) ↔ IsDeclarable scope es := by
  rw [declareOwn]
  cases listed : enumValues? es with
  | some values =>
    refine iff_of_true (returns_bind_pure_iff.2 ?_) ⟨?_, ?_⟩
    · exact returns_variantsAfter (isJson_of_enumValues? json listed) []
    · intro unlisted
      rw [listed] at unlisted
      cases unlisted
    · intro unlisted
      rw [listed] at unlisted
      cases unlisted
  | none =>
    obtain ⟨interfaced, decided⟩ := exists_isInterface json
    rw [returns_bind_iff]
    simp only [ofText_result_eq_ok_iff, decided, Except.ok.injEq, exists_eq_left']
    cases interfaced with
    | true =>
      rw [if_pos rfl, returns_bind_pure_iff, returns_declareInterface_iff json]
      refine ⟨fun read => ⟨fun _ _ => read, fun _ other => ?_⟩, fun h => h.interface listed decided⟩
      rw [decided] at other
      cases other
    | false =>
      rw [if_neg Bool.false_ne_true, returns_bind_pure_iff]
      refine ⟨fun typed => ⟨fun _ other => ?_, fun _ _ => typed⟩, fun h => h.typed listed decided⟩
      rw [decided] at other
      cases other

end Json

/-! ### Chains of references -/

theorem namesVariants_of_isJson {es : Entries} (json : IsJson (.map es)) : NamesVariants es := by
  have field : IsJson ((es.get "discriminator").field "propertyName") := by
    have discriminator := json.get "discriminator"
    generalize es.get "discriminator" = v at discriminator
    cases v with
    | map fs => exact discriminator.get "propertyName"
    | _ => exact .null
  intro property mem
  rw [Value.present?] at mem
  split at mem
  · cases mem
    exact field.shown
  · exact absurd mem (Option.not_mem_none property)

theorem leadsTo_reference_iff {components : Components} {stack : Stack} {es last : Entries}
    {value : Value} {ref : String} (noted : NamesVariants es)
    (refers : Entries.find? "$ref" es = some value) (shown : value.shown = .ok ref) :
    LeadsTo components stack es last ↔ ∃ target es', componentOf? ref = some target ∧
      target ∉ stack ∧ component? components target = some es' ∧
        LeadsTo components (pushName stack target) es' last := by
  constructor
  · intro leads
    cases leads with
    | here _ own =>
      rw [refers] at own
      cases own
    | next _ refers' shown' names new known rest =>
      rw [refers] at refers'
      cases refers'
      rw [shown] at shown'
      cases shown'
      exact ⟨_, _, names, new, known, rest⟩
  · rintro ⟨target, es', names, new, known, rest⟩
    exact .next noted refers shown names new known rest

theorem returns_iff_of_warned_eq {α : Type} {x y : Lowering α} (same : warned x = warned y) :
    Returns x ↔ Returns y := by
  have result : (warned x).result = (warned y).result := congrArg Report.result same
  change x.result = y.result at result
  rw [Returns, Returns, result]

theorem mem_of_component? {components : Components} {name : String} {es : Entries}
    (found : component? components name = some es) : (name, Value.map es) ∈ components := by
  obtain ⟨v, found, map⟩ := Option.bind_eq_some_iff.1 found
  cases v with
  | map fs =>
    cases map
    exact Document.mem_of_lookup found
  | _ => cases map

section Chain

variable {scope : Scope} (known : ∀ c ∈ scope.components, IsJson c.2) {typeName : String}

include known in
theorem isJson_of_component? {name : String} {es : Entries}
    (found : component? scope.components name = some es) : IsJson (.map es) :=
  known _ (mem_of_component? found)

/-- One reference is followed, where those after it are. -/
theorem returns_declareStep_iff {es : Entries} (json : IsJson (.map es)) {stack : Stack}
    {follow : Option (Stack → Option String → Value → Lowering Declaration)}
    (firstHop : Option String)
    (followed : ∀ target es', target ∉ stack → component? scope.components target = some es' →
      ∃ next, follow = some next ∧ ∀ hop,
        (Returns (next (pushName stack target) hop (.map es')) ↔
          ∀ last, LeadsTo scope.components (pushName stack target) es' last →
            IsDeclarable scope last)) :
    Returns (declareStep scope typeName follow stack firstHop (.map es)) ↔
      ∀ last, LeadsTo scope.components stack es last → IsDeclarable scope last := by
  have noted := namesVariants_of_isJson json
  cases refers : Entries.find? "$ref" es with
  | none =>
    simp only [leadsTo_own_iff refers, and_iff_right noted, forall_eq,
      ← @returns_declareOwn_iff scope typeName es json, Returns, declareStep_own refers]
  | some value =>
    have value_json := json.get "$ref"
    rw [Entries.get, refers] at value_json
    obtain ⟨ref, shown⟩ := value_json.shown
    simp only [leadsTo_reference_iff noted refers shown]
    rw [returns_iff_of_warned_eq (warned_declareStep (.mk noted refers shown))]
    by_cases onward : ∃ target es', componentOf? ref = some target ∧ target ∉ stack ∧
        component? scope.components target = some es'
    · obtain ⟨target, es', names, new, found⟩ := onward
      obtain ⟨next, rfl, rest⟩ := followed target es' new found
      rw [declareReference_next names new found, ← pushName_of_not_mem new, rest]
      simp only [names, Option.some.injEq, found, new, not_false_eq_true, true_and,
        exists_eq_left', exists_and_left]
    · refine iff_of_true ?_ ?_
      · by_cases again : ∃ target, componentOf? ref = some target ∧ target ∈ stack
        · obtain ⟨target, names, again⟩ := again
          rw [declareReference_circular names again]
          exact ⟨_, rfl⟩
        · rw [declareReference_unresolved fun target names => ?_]
          · exact ⟨_, rfl⟩
          · have new : target ∉ stack := fun mem => again ⟨target, names, mem⟩
            refine ⟨new, Option.eq_none_iff_forall_ne_some.2 fun es' found => ?_⟩
            exact onward ⟨target, es', names, new, found⟩
      · rintro last ⟨target, es', names, new, found, -⟩
        exact absurd ⟨target, es', names, new, found⟩ onward

include known in
/-- **A schema of JSON is declared** exactly if the one that its references lead to can be. -/
theorem returns_declareWithin_iff {es : Entries} (json : IsJson (.map es)) {stack : Stack}
    {links : Nat} (enough : remaining scope.components stack ≤ links) (firstHop : Option String) :
    Returns (declareWithin scope typeName links stack firstHop (.map es)) ↔
      ∀ last, LeadsTo scope.components stack es last → IsDeclarable scope last := by
  induction links generalizing es stack firstHop with
  | zero =>
    refine returns_declareStep_iff json firstHop fun target es' new found => ?_
    have fewer := remaining_pushName_lt found new
    omega
  | succ links ih =>
    refine returns_declareStep_iff json firstHop fun target es' new found => ⟨_, rfl, fun hop => ?_⟩
    have fewer := remaining_pushName_lt found new
    exact ih (isJson_of_component? known found) (by omega) hop

end Chain

theorem declareStep_of_map?_eq_none {scope : Scope} {typeName : String} {v : Value}
    {follow : Option (Stack → Option String → Value → Lowering Declaration)} {stack : Stack}
    {firstHop : Option String} (noMap : v.map? = none) :
    declareStep scope typeName follow stack firstHop v = do
      let type ← lower scope v
      return .typeAlias { name := typeName, type } := by
  cases v with
  | map es => cases noMap
  | _ => rfl

/-- **Which schemas of JSON have a type and a declaration.** A schema has a type exactly if every
schema in it that is read as an object has a `required` that lists scalars and `properties` that are
a mapping, or ones that count as absent. It has a declaration exactly if the schema that its
references lead to, if they lead to any, becomes an enumeration, an interface with such `required`
and `properties` whose parts have types, or an alias of its own type. -/
theorem lower_and_declare_return_iff (scope : Scope) {schema : Value} (json : IsJson schema)
    (known : ∀ c ∈ scope.components, IsJson c.2) (stack : Stack) (name : String) :
    (Returns (lower scope schema) ↔ ∀ es ∈ schemasRead scope.budget schema,
      isReadAsObject es = true → listsMembers es = true) ∧
    (Returns (declare scope stack name schema) ↔ ∀ es, schema = .map es →
      ∀ last, LeadsTo scope.components (pushName stack name) es last →
        IsDeclarable scope last) := by
  refine ⟨returns_lowerWithin_iff scope json, ?_⟩
  cases found : schema.map? with
  | some es =>
    have map := eq_map_of_map? found
    rw [map] at json ⊢
    simp only [Value.map.injEq, forall_eq']
    exact returns_declareWithin_iff known json List.countP_le_length none
  | none =>
    obtain ⟨follow, step⟩ := exists_declareStep scope (Name.typeName name) scope.components.length
    rw [declare, step, declareStep_of_map?_eq_none found]
    refine iff_of_true ?_ fun es map => ?_
    · exact returns_bind_pure_iff.2 (returns_lowerWithin_of_map?_eq_none found scope _)
    · rw [map] at found
      cases found

/-- A schema whose keywords are of other kinds than they should be, apart from its members. -/
def misfit : Entries :=
  [(.str "type", .map []), (.str "items", .str "name"), (.str "enum", .bool true),
    (.str "properties", .map [(.str "name", .map [(.str "type", .list [.str "string", .null])])]),
    (.str "required", .list [.str "name", .null])]

theorem isJson_misfit : IsJson (.map misfit) := by simp [misfit]

theorem lower_and_declare_return_of_misfit : Returns (lower ⟨[], 64⟩ (.map misfit)) ∧
    Returns (declare ⟨[], 64⟩ [] "Misfit" (.map misfit)) := by
  obtain ⟨lowered, declared⟩ := lower_and_declare_return_iff ⟨[], 64⟩ isJson_misfit
    (List.forall_mem_nil _) [] "Misfit"
  refine ⟨lowered.2 (by decide +kernel), declared.2 fun es same last leads => ?_⟩
  cases same
  obtain ⟨-, rfl⟩ := (leadsTo_own_iff rfl).1 leads
  constructor
  case typed =>
    intro _ other
    cases other
  case interface =>
    intro _ _
    refine ⟨by decide +kernel, fun part mem => ?_⟩
    rw [List.mem_singleton.1 mem]
    exact ⟨_, rfl⟩

/-- A schema of an object with a keyword for its members that holds some value. -/
def objectWith (keyword : String) (v : Value) : Value :=
  .map [(.str "type", .str "object"), (.str keyword, v)]

theorem isJson_objectWith (keyword : String) {v : Value} (json : IsJson v) :
    IsJson (objectWith keyword v) := by
  simp [objectWith, json]

/-- An object that is called required itself, and one whose properties are a list of names, are
values of JSON without a type and without a declaration: the keywords are read unchecked. -/
theorem malformed_members_fail :
    (IsJson (objectWith "required" (.bool true)) ∧
      IsJson (objectWith "properties" (.list [.str "name"]))) ∧
    ∀ schema ∈ [objectWith "required" (.bool true), objectWith "properties" (.list [.str "name"])],
      (lower ⟨[], 64⟩ schema).result = .error .malformed ∧
      (declare ⟨[], 64⟩ [] "Pet" schema).result = .error .malformed := by
  refine ⟨⟨isJson_objectWith _ (.bool true), isJson_objectWith _ (by simp)⟩, ?_⟩
  intro schema mem
  rcases List.mem_pair.1 mem with rfl | rfl <;> exact ⟨rfl, rfl⟩

end ClientGen.Schema
