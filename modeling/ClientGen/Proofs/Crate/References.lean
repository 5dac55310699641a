import ClientGen.Proofs.Crate.Held
import ClientGen.Proofs.Package.Files

/-!
# The models that a model imports

A model imports the models whose names stand in its types. A name gets there by a reference to a
component, at the place of the schema or inside it (`RefersIn`); the names of the library that types
are written with get there as well.

* `namesIn_text`: the names between brackets and commas are those that a type is written with.
* `models_typeOf`: the models in the type of a schema are those that references in it name.
* **The imports of a model** (`mem_references_iff`): they are in ascending order, and they are the
  other models that references name, and those that have the name of a library type.
* A component with such a name is imported without any reference (`string_is_imported`).
-/

namespace ClientGen.Crate

open Report (Yields bind_result_eq_ok_iff yields_bind)
open Schema (Components)

/-! ### Names in the text of a type -/

/-- Whether a character stands between the names in the text of a type. -/
def isBetween (c : Char) : Bool := c = '<' || c = '>' || c = ',' || Text.isBlank c

/-- The names in the text of a type: what stands between brackets, commas and blank space. -/
def namesIn (type : String) : List String :=
  ((Text.splitWhere isBetween type.toList).filter (!·.isEmpty)).map String.ofList

theorem isBetween_of_isAlphanum {c : Char} (letter : c.isAlphanum = true) : isBetween c = false :=
  Name.of_isAlphanum (P := fun d => isBetween d = false) (by decide) letter

/-- Text in a bracket has names of its own. -/
theorem namesIn_wrapped {front : String} (ends : front.toList.getLast?.any isBetween = true)
    (inner : String) : namesIn (front ++ inner ++ ">") = namesIn front ++ namesIn inner := by
  obtain ⟨c, last, between⟩ := Option.any_eq_true _ _ |>.1 ends
  obtain ⟨before, text⟩ := List.getLast?_eq_some_iff.1 last
  have bracket : isBetween '>' = true := by decide
  have whole : (front ++ inner ++ ">").toList = before ++ c :: (inner.toList ++ '>' :: []) := by
    simp [text]
  rw [namesIn, namesIn, namesIn, whole, text, Text.splitWhere_append_cons between,
    Text.splitWhere_append_cons bracket, Text.splitWhere_append_cons between]
  simp [Text.splitWhere]

/-- A text without brackets, commas and blanks is one name, if there is any text. -/
theorem namesIn_of_plain {name : String} (plain : ∀ c ∈ name.toList, isBetween c = false) :
    namesIn name = [name].filter (!·.isEmpty) := by
  rw [namesIn, Text.splitWhere_of_forall plain]
  by_cases none : name = ""
  · subst none
    decide
  · have filled : name.toList ≠ [] := mt String.toList_eq_nil_iff.1 none
    simp [filled, none]

/-- The names of the types without parts. -/
def builtinNames : List String := "serde_json::Value" :: "u8" :: scalarNames

/-- The names that types with parts are written with. -/
def wrapperNames : List String := ["Vec", "HashMap", "Option", "Box"]

namespace RustType

/-- Whether a type is made of types without parts and models. -/
inductive IsMade : RustType → Prop
  | builtin {name} (listed : name ∈ builtinNames) : IsMade (builtin name)
  | model (name) : IsMade (model (Name.pascal name))
  | vec {item} (made : IsMade item) : IsMade (vec item)
  | map {value} (made : IsMade value) : IsMade (map value)
  | option {inner} (made : IsMade inner) : IsMade (option inner)
  | box {inner} (made : IsMade inner) : IsMade (box inner)

/-- The names of the models in a type. -/
def models : RustType → List String
  | builtin _ => []
  | model name => [name]
  | vec item => item.models
  | map value => value.models
  | option inner => inner.models
  | box inner => inner.models

/-- **The names between brackets and commas** are those that a type is written with. -/
theorem namesIn_text {t : RustType} (made : IsMade t) :
    namesIn t.text = t.words.filter (!·.isEmpty) := by
  induction made with
  | @builtin name listed =>
    have plain : (builtinNames.all fun s => s.toList.all fun c => !isBetween c) = true := by decide
    apply namesIn_of_plain
    intro c mem
    have here := List.all_eq_true.1 (List.all_eq_true.1 plain name listed) c mem
    simpa using here
  | model name =>
    exact namesIn_of_plain fun c mem => isBetween_of_isAlphanum (Name.isAlphanum_pascal name c mem)
  | vec _ ih =>
    have front : namesIn "Vec<" = ["Vec"] := by decide
    refine (namesIn_wrapped (by decide) _).trans ?_
    rw [front, ih]
    rfl
  | map _ ih =>
    have front : namesIn "HashMap<String, " = ["HashMap", "String"] := by decide
    refine (namesIn_wrapped (by decide) _).trans ?_
    rw [front, ih]
    rfl
  | option _ ih =>
    have front : namesIn "Option<" = ["Option"] := by decide
    refine (namesIn_wrapped (by decide) _).trans ?_
    rw [front, ih]
    rfl
  | box _ ih =>
    have front : namesIn "Box<" = ["Box"] := by decide
    refine (namesIn_wrapped (by decide) _).trans ?_
    rw [front, ih]
    rfl

theorem mem_namesIn_text_iff {t : RustType} (made : IsMade t) {name : String} :
    name ∈ namesIn t.text ↔ name ∈ t.words ∧ name ≠ "" := by
  rw [namesIn_text made, List.mem_filter]
  simp

theorem mem_words_of_mem_models {t : RustType} {name : String} (mem : name ∈ t.models) :
    name ∈ t.words := by
  induction t with
  | builtin => cases mem
  | model => exact mem
  | vec _ ih => exact List.mem_cons_of_mem _ (ih mem)
  | map _ ih => exact List.mem_cons_of_mem _ (List.mem_cons_of_mem _ (ih mem))
  | option _ ih => exact List.mem_cons_of_mem _ (ih mem)
  | box _ ih => exact List.mem_cons_of_mem _ (ih mem)

/-- A type is written with the names of models, of types without parts and of types with parts. -/
theorem mem_words_cases {t : RustType} (made : IsMade t) {name : String} (mem : name ∈ t.words) :
    name ∈ t.models ∨ name ∈ builtinNames ++ wrapperNames := by
  induction made with
  | builtin listed =>
    rw [List.mem_singleton.1 mem]
    exact .inr (List.mem_append_left _ listed)
  | model => exact .inl mem
  | vec _ ih =>
    rcases List.mem_cons.1 mem with rfl | mem
    · exact .inr (by decide)
    · exact ih mem
  | map _ ih =>
    rcases List.mem_cons.1 mem with rfl | mem
    · exact .inr (by decide)
    · rcases List.mem_cons.1 mem with rfl | mem
      · exact .inr (by decide)
      · exact ih mem
  | option _ ih =>
    rcases List.mem_cons.1 mem with rfl | mem
    · exact .inr (by decide)
    · exact ih mem
  | box _ ih =>
    rcases List.mem_cons.1 mem with rfl | mem
    · exact .inr (by decide)
    · exact ih mem

theorem models_toOption (t : RustType) : t.toOption.models = t.models := by
  cases t <;> rfl

theorem IsMade.toOption {t : RustType} (made : IsMade t) : IsMade t.toOption := by
  cases made with
  | option made => exact .option made
  | builtin listed => exact .option (.builtin listed)
  | model name => exact .option (.model name)
  | vec made => exact .option (.vec made)
  | map made => exact .option (.map made)
  | box made => exact .option (.box made)

end RustType

/-! ### References in schemas -/

/-- The single type that a schema has, if it is known. -/
def soleType? (es : Entries) (types : List String) : Option String :=
  match types with
  | _ :: _ :: _ => none
  | types => types.head?.or (impliedType? es)

/-- The schema whose type is part of that of a schema of a single type: the items of an array, or
the values of an object without properties. -/
def partOf? (es : Entries) : (type : Option String) → Option Entries
  | some "array" => (es.get "items").map?
  | some "object" =>
    if (es.get "properties").truthy then none else (es.get "additionalProperties").map?
  | _ => none

/-- The schema whose type is part of the type of a schema. One that refers to a component or
combines schemas has none. -/
def inside? (es : Entries) : Option Entries :=
  if (es.find? "$ref").isSome || Schema.isComposed es then none
  else
    match (typesOf es).result with
    | .ok read => partOf? es (soleType? es (typesLeft es read.1))
    | .error _ => none

/-- Whether a reference in a schema names a component, and puts it into the type. -/
inductive RefersIn (components : Components) : Value → String → Prop
  | here {schema name} (refers : refersTo? components schema = some name) :
    RefersIn components schema name
  | inside {es inner name} (part : inside? es = some inner)
    (refers : RefersIn components (.map inner) name) : RefersIn components (.map es) name

/-- Whether a reference in a schema puts the model with a name into the type. -/
def Mentions (components : Components) (schema : Value) (model : String) : Prop :=
  ∃ name, RefersIn components schema name ∧ Name.pascal name = model

/-- The same for a schema that may be missing. -/
def MentionsIn (components : Components) (part : Option Entries) (model : String) : Prop :=
  ∃ inner, part = some inner ∧ Mentions components (.map inner) model

section References

variable {components : Components} {es : Entries} {model : String}

theorem not_mentionsIn_none : ¬MentionsIn components none model := by
  rintro ⟨inner, part, -⟩
  cases part

theorem mentionsIn_some {inner : Entries} :
    MentionsIn components (some inner) model ↔ Mentions components (.map inner) model := by
  simp [MentionsIn]

theorem mentions_map_iff : Mentions components (.map es) model ↔
    (refersTo? components (.map es)).map Name.pascal = some model ∨
      MentionsIn components (inside? es) model := by
  constructor
  · rintro ⟨name, h, named⟩
    cases h with
    | here refers => exact .inl (by rw [refers, ← named, Option.map_some])
    | inside part refers => exact .inr ⟨_, part, name, refers, named⟩
  · rintro (refers | ⟨inner, part, name, refers, named⟩)
    · obtain ⟨name, refers, named⟩ := Option.map_eq_some_iff.1 refers
      exact ⟨name, .here refers, named⟩
    · exact ⟨name, .inside part refers, named⟩

theorem not_mentions_of_not_map {schema : Value} (other : schema.map? = none) :
    ¬Mentions components schema model := by
  rintro ⟨name, h, -⟩
  cases h with
  | here refers =>
    cases schema with
    | map es => cases other
    | _ => cases refers
  | inside => cases other

/-- The components that a schema refers to are there. -/
theorem exists_of_mentions {schema : Value} (h : Mentions components schema model) :
    ∃ c ∈ components, Name.pascal c.1 = model := by
  obtain ⟨name, refers, rfl⟩ := h
  induction refers with
  | inside _ _ ih => exact ih
  | here refers =>
    obtain ⟨ref, -, named⟩ := Option.bind_eq_some_iff.1 refers
    obtain ⟨-, known⟩ := Option.filter_eq_some_iff.1 named
    obtain ⟨schema, found⟩ := Option.isSome_iff_exists.1 known
    exact ⟨_, Document.mem_of_lookup found, rfl⟩

theorem inside?_of_ref {ref : Value} (found : es.find? "$ref" = some ref) : inside? es = none := by
  simp [inside?, found]

theorem inside?_of_composed (composed : Schema.isComposed es = true) : inside? es = none := by
  simp [inside?, composed]

theorem inside?_of_plain (found : es.find? "$ref" = none) (plain : Schema.isComposed es = false)
    {read : List String × Bool} (listed : (typesOf es).result = .ok read) :
    inside? es = partOf? es (soleType? es (typesLeft es read.1)) := by
  simp [inside?, found, plain, listed]

end References

/-! ### Models in the types of schemas -/

/-- Whether a type is made of types without parts and of the models that satisfy `P`. -/
structure HasModels (P : String → Prop) (t : RustType) : Prop where
  made : t.IsMade
  models : ∀ model, model ∈ t.models ↔ P model

theorem hasModels_builtin {P : String → Prop} {name : String} (listed : name ∈ builtinNames)
    (none : ∀ model, ¬P model) : HasModels P (.builtin name) where
  made := .builtin listed
  models model := iff_of_false List.not_mem_nil (none model)

section Types

variable {components : Components} {sub : Value → Lowering RustType} {es : Entries} {t : RustType}

theorem hasModels_scalarType {P : String → Prop} {type : String} {format : Value}
    (typed : (scalarType type format).result = .ok t) (none : ∀ model, ¬P model) :
    HasModels P t := by
  rcases scalarType_cases typed with ⟨-, rfl⟩ | ⟨-, rfl | ⟨name, scalar, rfl⟩⟩
  · exact hasModels_builtin (by decide) none
  · obtain ⟨made, models⟩ : HasModels P (.builtin "u8") := hasModels_builtin (by decide) none
    exact ⟨.vec made, models⟩
  · have listed : name ∈ builtinNames := by
      apply List.mem_cons_of_mem
      apply List.mem_cons_of_mem
      exact scalar
    exact hasModels_builtin listed none

theorem typeOfSingle_array : typeOfSingle sub es (some "array") =
    match partOf? es (some "array") with
    | some items => do return .vec (← sub (.map items))
    | none => pure (.vec .json) := by
  rw [typeOfSingle, partOf?]
  cases es.get "items" <;> rfl

theorem typeOfSingle_object : typeOfSingle sub es (some "object") =
    match partOf? es (some "object") with
    | some additional => do return .map (← sub (.map additional))
    | none => pure .json := by
  rw [typeOfSingle, partOf?]
  cases (es.get "properties").truthy <;> cases es.get "additionalProperties" <;> rfl

theorem partOf?_of_other {type : Option String} (array : type ≠ some "array")
    (object : type ≠ some "object") : partOf? es type = none := by
  unfold partOf?
  split
  · exact absurd rfl array
  · exact absurd rfl object
  · rfl

section Nested

variable (nested : ∀ v t, (sub v).result = .ok t → HasModels (Mentions components v) t)

include nested

theorem hasModels_inside {inner : Entries} (typed : (sub (.map inner)).result = .ok t) :
    HasModels (MentionsIn components (some inner)) t := by
  obtain ⟨made, models⟩ := nested _ _ typed
  exact ⟨made, fun model => (models model).trans mentionsIn_some.symm⟩

/-- The models in the type of a schema of a single type are those in the type of its part. -/
theorem hasModels_typeOfSingle {type : Option String}
    (typed : (typeOfSingle sub es type).result = .ok t) :
    HasModels (MentionsIn components (partOf? es type)) t := by
  have bare (model : String) : ¬MentionsIn components none model := not_mentionsIn_none
  by_cases array : type = some "array"
  · subst array
    rw [typeOfSingle_array] at typed
    cases listed : partOf? es (some "array") with
    | some items =>
      rw [listed] at typed
      obtain ⟨item, inner, eq⟩ := bind_result_eq_ok_iff.1 typed
      cases eq
      obtain ⟨made, models⟩ := hasModels_inside nested inner
      exact ⟨.vec made, models⟩
    | none =>
      rw [listed] at typed
      cases typed
      exact ⟨.vec (.builtin (by decide)), fun model => iff_of_false List.not_mem_nil (bare model)⟩
  · by_cases object : type = some "object"
    · subst object
      rw [typeOfSingle_object] at typed
      cases listed : partOf? es (some "object") with
      | some additional =>
        rw [listed] at typed
        obtain ⟨value, inner, eq⟩ := bind_result_eq_ok_iff.1 typed
        cases eq
        obtain ⟨made, models⟩ := hasModels_inside nested inner
        exact ⟨.map made, models⟩
      | none =>
        rw [listed] at typed
        cases typed
        exact hasModels_builtin (by decide) bare
    · rw [partOf?_of_other array object]
      unfold typeOfSingle at typed
      split at typed
      · exact absurd rfl array
      · exact absurd rfl object
      · exact hasModels_scalarType typed bare
      · cases typed
        exact hasModels_builtin (by decide) bare

theorem hasModels_typeOfTypes {types : List String} {nullable : Bool}
    (typed : (typeOfTypes sub es types nullable).result = .ok t) :
    HasModels (MentionsIn components (partOf? es (soleType? es types))) t := by
  unfold typeOfTypes at typed
  split at typed
  · cases typed
    exact hasModels_builtin (by decide) fun model => not_mentionsIn_none
  · next single =>
    have sole : soleType? es types = types.head?.or (impliedType? es) := by
      unfold soleType?
      split
      · exact absurd rfl (single _ _ _)
      · rfl
    obtain ⟨u, inner, eq⟩ := bind_result_eq_ok_iff.1 typed
    cases eq
    obtain ⟨made, models⟩ := hasModels_typeOfSingle nested inner
    rw [sole]
    cases nullable with
    | true => exact ⟨made.toOption, fun model => (RustType.models_toOption u).symm ▸ models model⟩
    | false => exact ⟨made, models⟩

theorem hasModels_typeOfEntries (typed : (typeOfEntries components sub es).result = .ok t) :
    HasModels (Mentions components (.map es)) t := by
  cases found : es.find? "$ref" with
  | some ref =>
    rw [typeOfEntries_of_ref found] at typed
    have refers : refersTo? components (.map es) = ref.str?.bind (namedBy components) := by
      rw [refersTo?_map, Entries.get, found, Option.getD_some]
    have mentions (model : String) : Mentions components (.map es) model ↔
        (ref.str?.bind (namedBy components)).map Name.pascal = some model := by
      rw [mentions_map_iff, refers, inside?_of_ref found, or_iff_left not_mentionsIn_none]
    rw [typeOfRef_result typed]
    cases named : ref.str?.bind (namedBy components) with
    | none =>
      apply hasModels_builtin (by decide)
      intro model
      rw [mentions, named]
      intro other
      cases other
    | some name =>
      refine ⟨.model name, fun model => ?_⟩
      rw [mentions, named, Option.map_some, Option.some.injEq, eq_comm]
      exact List.mem_singleton
  | none =>
    have mentions (model : String) : Mentions components (.map es) model ↔
        MentionsIn components (inside? es) model := by
      rw [mentions_map_iff, refersTo?_map, Entries.get, found]
      apply or_iff_right
      intro other
      cases other
    cases composed : Schema.isComposed es with
    | true =>
      rw [typeOfEntries_of_composed found composed] at typed
      cases typed
      apply hasModels_builtin (by decide)
      intro model
      rw [mentions, inside?_of_composed composed]
      exact not_mentionsIn_none
    | false =>
      rw [typeOfEntries_of_plain found composed] at typed
      obtain ⟨read, listed, typed⟩ := bind_result_eq_ok_iff.1 typed
      obtain ⟨made, models⟩ := hasModels_typeOfTypes nested typed
      refine ⟨made, fun model => ?_⟩
      rw [mentions, inside?_of_plain found composed listed]
      exact models model

end Nested

/-- **The models in the type of a schema** are those that references in the schema name. -/
theorem hasModels_typeOf {schema : Value} (typed : (typeOf components schema).result = .ok t) :
    HasModels (Mentions components schema) t := by
  rw [typeOf] at typed
  generalize deepest = left at typed
  induction left generalizing schema t with
  | zero =>
    cases schema with
    | map es => cases typed
    | _ =>
      cases typed
      exact hasModels_builtin (by decide) fun model => not_mentions_of_not_map rfl
  | succ left ih =>
    cases schema with
    | map es => exact hasModels_typeOfEntries (fun v t typed => ih typed) typed
    | _ =>
      cases typed
      exact hasModels_builtin (by decide) fun model => not_mentions_of_not_map rfl

end Types

/-! ### Models -/

namespace RustType

section Boxed

variable {own model : String} {t : RustType}

theorem IsMade.boxed {name : String} (made : t.IsMade) : (boxed (Name.pascal name) t).IsMade := by
  unfold RustType.boxed
  split
  · exact .box (.model name)
  · split
    · exact .option (.box (.model name))
    · exact made

/-- Boxing the own model of a struct leaves the other models. -/
theorem mem_models_boxed (letters : '<' ∉ own.toList) (plain : t.IsPlain) (other : model ≠ own) :
    model ∈ (boxed own t).models ↔ model ∈ t.models := by
  unfold boxed
  split
  · next same =>
    rcases (text_eq_iff letters).1 same with rfl | rfl
    · simp [models, other]
    · rfl
  · split
    · next same =>
      rcases (text_eq_option_iff letters plain).1 same with rfl | rfl
      · simp [models, other]
      · rfl
    · rfl

theorem mem_models_fieldType (letters : '<' ∉ own.toList) (plain : t.IsPlain) (other : model ≠ own)
    (isRequired : Bool) : model ∈ (fieldType own t isRequired).models ↔ model ∈ t.models := by
  rw [fieldType_eq, ← mem_models_boxed letters plain other]
  split
  · rfl
  · rw [models_toOption]

theorem IsMade.fieldType {name : String} (made : t.IsMade) (isRequired : Bool) :
    (fieldType (Name.pascal name) t isRequired).IsMade := by
  rw [fieldType_eq]
  split
  · exact made.boxed
  · exact made.boxed.toOption

end Boxed

end RustType

/-- The schemas whose types a model is made of. -/
def typedSchemas (schema : Value) : List Value :=
  match outline? schema with
  | some (.struct properties) => properties.map (·.2)
  | some .typeAlias => [schema]
  | _ => []

section Models

variable {components : Components} {name : String} {schema : Value} {m : Model}

theorem isMade_types (built : (modelOf components name schema).result = .ok m) :
    ∀ t ∈ m.types, t.IsMade := by
  rw [Model.types]
  cases typedBy_modelOf built with
  | enum _ shape =>
    rw [shape]
    intro t mem
    cases mem
  | typeAlias _ typed shape =>
    rw [shape]
    intro t mem
    rw [List.mem_singleton.1 mem]
    exact (hasModels_typeOf typed).made
  | struct _ typed shape =>
    rw [shape]
    intro t mem
    obtain ⟨f, listed, rfl⟩ := List.mem_map.1 mem
    obtain ⟨p, -, u, isRequired, typed, eq⟩ := exists_of_forall₂_right (forall₂_fieldsOf typed) listed
    rw [eq]
    exact (hasModels_typeOf typed).made.fieldType isRequired

/-- The models in the types of a model, apart from itself, are those that its schemas mention. -/
theorem mem_models_types_iff (built : (modelOf components name schema).result = .ok m)
    {model : String} (other : model ≠ Name.pascal name) :
    (∃ t ∈ m.types, model ∈ t.models) ↔ ∃ s ∈ typedSchemas schema, Mentions components s model := by
  rw [typedSchemas, Model.types]
  cases typedBy_modelOf built with
  | enum outlined shape =>
    rw [outlined, shape]
    simp
  | typeAlias outlined typed shape =>
    rw [outlined, shape]
    simp [(hasModels_typeOf typed).models]
  | struct outlined typed shape =>
    rw [outlined, shape]
    have each := forall₂_fieldsOf typed
    have field {t : RustType} {s : Value} (typed : (typeOf components s).result = .ok t)
        (isRequired : Bool) : model ∈ (fieldType (Name.pascal name) t isRequired).models ↔
          Mentions components s model := by
      rw [RustType.mem_models_fieldType (letters_pascal name) (isPlain_typeOf typed) other]
      exact (hasModels_typeOf typed).models model
    simp only [List.mem_map, exists_exists_and_eq_and]
    constructor
    · rintro ⟨f, mem, shown⟩
      obtain ⟨p, member, t, isRequired, typed, eq⟩ := exists_of_forall₂_right each mem
      rw [eq, field typed] at shown
      exact ⟨p, member, shown⟩
    · rintro ⟨p, member, mentions⟩
      obtain ⟨f, mem, t, isRequired, typed, eq⟩ := exists_of_forall₂_left each member
      refine ⟨f, mem, ?_⟩
      rwa [eq, field typed]

/-- The imports for types are the models of other components whose names stand in their texts. -/
theorem mem_modelReferences_iff {own model : String} {types : List RustType}
    (made : ∀ t ∈ types, t.IsMade) : model ∈ modelReferences components own types ↔
      model ≠ own ∧ model ≠ "" ∧ (∃ c ∈ components, Name.pascal c.1 = model) ∧
        ∃ t ∈ types, model ∈ namesIn t.text := by
  rw [modelReferences, mem_sortedNames, List.mem_filter, List.mem_flatMap]
  simp only [Bool.and_eq_true, Bool.not_eq_true', String.isEmpty_eq_false_iff, List.contains_iff_mem,
    List.mem_map, bne_iff_ne]
  constructor
  · rintro ⟨⟨t, mem, word⟩, ⟨filled, known⟩, other⟩
    have shown := (RustType.mem_namesIn_text_iff (made t mem)).2 ⟨word, filled⟩
    exact ⟨other, filled, known, t, mem, shown⟩
  · rintro ⟨other, filled, known, t, mem, shown⟩
    have word := ((RustType.mem_namesIn_text_iff (made t mem)).1 shown).1
    exact ⟨⟨t, mem, word⟩, ⟨filled, known⟩, other⟩

/-- The imports of every model are those for its types; there are none for an enum, and for an alias
of any JSON value. -/
theorem references_modelOf (components : Components) (name : String) (schema : Value) :
    Yields (fun m => m.references = modelReferences components (Name.pascal name) m.types)
      (modelOf components name schema) := by
  have none {types : List RustType} (unnamed : ∀ word ∈ types.flatMap RustType.words,
      word ∉ components.map fun c => Name.pascal c.1) :
      [] = modelReferences components (Name.pascal name) types := by
    symm
    rw [List.eq_nil_iff_forall_not_mem]
    intro model mem
    rw [modelReferences, mem_sortedNames, List.mem_filter] at mem
    have known := unnamed model mem.1
    simp [known] at mem
  unfold modelOf
  split
  · refine yields_bind fun read => ?_
    dsimp only
    split
    · exact .pure (none fun word mem => absurd mem List.not_mem_nil)
    · split
      · exact yields_bind fun required => yields_bind fun fields => .pure rfl
      · exact yields_bind fun type => .pure rfl
  · refine .pure (none fun word mem known => ?_)
    obtain ⟨c, -, same⟩ := List.mem_map.1 known
    rw [List.mem_singleton.1 mem] at same
    exact pascal_ne_of_isLower (by decide) c.1 same

end Models

/-- The names of the library that a model can have. -/
def libraryNames : List String := ["String", "Vec", "HashMap", "Option", "Box"]

theorem pascal_mem_libraryNames {name : String}
    (mem : Name.pascal name ∈ builtinNames ++ wrapperNames) : Name.pascal name ∈ libraryNames := by
  have small : ∀ s ∈ builtinNames ++ wrapperNames,
      s ∈ libraryNames ∨ s.toList.head?.any Char.isLower = true := by decide
  apply (small _ mem).resolve_right
  intro first
  exact pascal_ne_of_isLower first name rfl

/-- **The imports of a model** are in ascending order, each once. They are the other models that
references in its schemas name, and those that have the name of a library type in its types. -/
theorem mem_references_iff {components : Components} {name : String} {schema : Value} {m : Model}
    (built : (modelOf components name schema).result = .ok m) :
    (m.references.Pairwise fun s t => Text.lt s t = true) ∧
      ∀ model, model ∈ m.references ↔ model ≠ m.typeName ∧ model ≠ "" ∧
        ((∃ s ∈ typedSchemas schema, Mentions components s model) ∨
          model ∈ libraryNames ∧ (∃ c ∈ components, Name.pascal c.1 = model) ∧
            ∃ t ∈ m.types, model ∈ namesIn t.text) := by
  have made := isMade_types built
  rw [references_modelOf components name schema m built, typeName_modelOf built]
  refine ⟨pairwise_sortedNames _, fun model => ?_⟩
  rw [mem_modelReferences_iff made]
  constructor
  · rintro ⟨other, filled, ⟨c, mem, rfl⟩, t, typed, shown⟩
    refine ⟨other, filled, ?_⟩
    have word := ((RustType.mem_namesIn_text_iff (made t typed)).1 shown).1
    rcases RustType.mem_words_cases (made t typed) word with modeled | library
    · exact .inl ((mem_models_types_iff built other).1 ⟨t, typed, modeled⟩)
    · exact .inr ⟨pascal_mem_libraryNames library, ⟨c, mem, rfl⟩, t, typed, shown⟩
  · rintro ⟨other, filled, ⟨s, mem, mentions⟩ | ⟨-, known, shown⟩⟩
    · obtain ⟨t, typed, modeled⟩ := (mem_models_types_iff built other).2 ⟨s, mem, mentions⟩
      have word := RustType.mem_words_of_mem_models modeled
      exact ⟨other, filled, exists_of_mentions mentions, t, typed,
        (RustType.mem_namesIn_text_iff (made t typed)).2 ⟨word, filled⟩⟩
    · exact ⟨other, filled, known, shown⟩

/-- A schema of text. -/
def textSchema : Value := .map [(.str "type", .str "string")]

/-- A reference to the owner of a pet. -/
def ownerReference : Value := .map [(.str "$ref", .str "#/components/schemas/Owner")]

/-- A pet with a name and an owner. -/
def ownedSchema : Value :=
  .map [(.str "type", .str "object"),
    (.str "properties", .map [(.str "name", textSchema), (.str "owner", ownerReference)])]

/-- A pet with a name and an owner, beside a component that is called like text. -/
def ownedPets : Components :=
  [("Pet", ownedSchema), ("Owner", .map []), ("String", textSchema)]

theorem typedSchemas_ownedSchema : typedSchemas ownedSchema = [textSchema, ownerReference] := rfl

theorem exists_types_of_pet : ∃ m, (modelOf ownedPets "Pet" ownedSchema).result = .ok m ∧
    m.types = [.option (.builtin "String"), .option (.model "Owner")] := by
  apply map_eq_ok_iff.1
  decide

theorem mem_references_iff_of_pet :
    ∃ m, (modelOf ownedPets "Pet" ownedSchema).result = .ok m ∧ "Owner" ∈ m.references ∧
      (m.references.Pairwise fun s t => Text.lt s t = true) ∧
      ∀ model, model ∈ m.references ↔ model ≠ m.typeName ∧ model ≠ "" ∧
        ((∃ s ∈ typedSchemas ownedSchema, Mentions ownedPets s model) ∨
          model ∈ libraryNames ∧ (∃ c ∈ ownedPets, Name.pascal c.1 = model) ∧
            ∃ t ∈ m.types, model ∈ namesIn t.text) := by
  obtain ⟨m, built, -⟩ := exists_types_of_pet
  have imports := mem_references_iff built
  have other : "Owner" ≠ m.typeName := by
    rw [typeName_modelOf built]
    decide
  have mentions : ∃ s ∈ typedSchemas ownedSchema, Mentions ownedPets s "Owner" := by
    rw [typedSchemas_ownedSchema]
    exact ⟨ownerReference, List.mem_cons_of_mem _ List.mem_cons_self, "Owner", .here (by decide),
      by decide⟩
  exact ⟨m, built, (imports.2 "Owner").2 ⟨other, by decide, .inl mentions⟩, imports⟩

/-- A component that is called like a library type is imported, though no reference names it. -/
theorem string_is_imported :
    ∃ m, (modelOf ownedPets "Pet" ownedSchema).result = .ok m ∧ "String" ∈ m.references ∧
      ¬∃ s ∈ typedSchemas ownedSchema, Mentions ownedPets s "String" := by
  obtain ⟨m, built, types⟩ := exists_types_of_pet
  refine ⟨m, built, ?_, ?_⟩
  · rw [references_modelOf _ _ _ m built, mem_modelReferences_iff (isMade_types built), types]
    have shown : "String" ∈ namesIn (RustType.option (.builtin "String")).text := by decide
    have named : ∃ c ∈ ownedPets, Name.pascal c.1 = "String" :=
      ⟨("String", textSchema), by simp [ownedPets], by decide⟩
    exact ⟨by decide, by decide, named, _, List.mem_cons_self, shown⟩
  · rw [typedSchemas_ownedSchema]
    rintro ⟨s, mem, mentions⟩
    rcases List.mem_cons.1 mem with rfl | mem
    · rw [textSchema, mentions_map_iff] at mentions
      rcases mentions with refers | ⟨inner, part, -⟩
      · cases refers
      · cases part
    · rw [List.mem_singleton.1 mem, ownerReference, mentions_map_iff] at mentions
      rcases mentions with refers | ⟨inner, part, -⟩
      · revert refers
        decide
      · cases part

end ClientGen.Crate
