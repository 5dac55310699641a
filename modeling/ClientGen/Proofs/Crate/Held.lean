import ClientGen.Crate.Model
import ClientGen.Proofs.Crate.Files
import ClientGen.Proofs.Crate.Types
import ClientGen.Proofs.Name.Spelling
import Mathlib.Logic.Relation

/-!
# Models that hold one another

A value of a type has the values in it that its fields have, and those of an optional field as well;
a box, a vector or a map stands for as much memory whatever is in it. So the types of a crate have a
size if no model holds itself through others.

* `bare?_fieldType`: the type of a field shows what the type of its schema shows, but not the own
  type of its struct.
* `bare?_iff`: what the type of a schema shows is the component that it refers to, or text.
* `holds_iff`: which models hold which.
* **Which models hold themselves** (`holds_cycle_iff`): those in a circle of references, unless it
  is that of a struct to itself, with a struct that holds itself through an alias
  (`node_holds_itself`).
-/

namespace ClientGen.Crate

open Report (bind_result_eq_ok_iff)
open Schema (Components)

/-! ### Names in types -/

namespace RustType

/-- The name that a type shows outside boxes, vectors and maps. -/
def bare? : RustType → Option String
  | builtin name => some name
  | model name => some name
  | option inner => inner.bare?
  | _ => none

/-- Whether a type is told from others by its text: no name in front is written with brackets, and
no optional type is optional again. -/
inductive IsPlain : RustType → Prop
  | builtin {name} (letters : '<' ∉ name.toList) : IsPlain (builtin name)
  | model {name} (letters : '<' ∉ name.toList) : IsPlain (model name)
  | vec {item} : IsPlain (vec item)
  | map {value} : IsPlain (map value)
  | option {inner} (plain : IsPlain inner) (once : inner.isOption = false) :
    IsPlain (option inner)

theorem bare?_toOption (t : RustType) : t.toOption.bare? = t.bare? := by
  cases t <;> rfl

variable {t : RustType} {own : String} (letters : '<' ∉ own.toList)

include letters

theorem text_eq_iff : t.text = own ↔ t = .builtin own ∨ t = .model own := by
  have bracketed : ∀ {first inner : String}, '<' ∈ first.toList → first ++ inner ++ ">" ≠ own := by
    intro first inner mem eq
    refine letters (eq ▸ ?_)
    rw [String.toList_append, String.toList_append]
    exact List.mem_append_left _ (List.mem_append_left _ mem)
  cases t with
  | builtin name =>
    change name = own ↔ _
    simp
  | model name =>
    change name = own ↔ _
    simp
  | _ => exact iff_of_false (bracketed (by decide)) (by simp)

theorem text_eq_option_iff (plain : IsPlain t) :
    t.text = "Option<" ++ own ++ ">" ↔ t = .option (.builtin own) ∨ t = .option (.model own) := by
  have bracket : '<' ∈ ("Option<" ++ own ++ ">").toList := by
    rw [String.toList_append, String.toList_append]
    exact List.mem_append_left _ (List.mem_append_left _ (by decide))
  have first : ("Option<" ++ own ++ ">").toList.head? = some 'O' := by
    rw [String.toList_append, String.toList_append]
    rfl
  have others : ∀ {c : Char} {name : String}, name.toList.head? = some c → c ≠ 'O' →
      name ≠ "Option<" ++ own ++ ">" := by
    rintro c name opening other rfl
    exact other (Option.some.inj (opening.symm.trans first))
  cases plain with
  | @builtin name letters' =>
    exact iff_of_false (fun eq : name = _ => letters' (eq ▸ bracket)) (by simp)
  | @model name letters' =>
    exact iff_of_false (fun eq : name = _ => letters' (eq ▸ bracket)) (by simp)
  | vec =>
    refine iff_of_false (others (c := 'V') ?_ (by decide)) (by simp)
    change ("Vec<" ++ _ ++ ">").toList.head? = _
    rw [String.toList_append, String.toList_append]
    rfl
  | map =>
    refine iff_of_false (others (c := 'H') ?_ (by decide)) (by simp)
    change ("HashMap<String, " ++ _ ++ ">").toList.head? = _
    rw [String.toList_append, String.toList_append]
    rfl
  | @option inner =>
    change "Option<" ++ inner.text ++ ">" = _ ↔ _
    rw [String.append_left_inj, String.append_right_inj, text_eq_iff letters]
    simp

theorem bare?_eq_own_iff (plain : IsPlain t) :
    t.bare? = some own ↔ t.text = own ∨ t.text = "Option<" ++ own ++ ">" := by
  rw [text_eq_iff letters, text_eq_option_iff letters plain]
  cases plain with
  | builtin => simp [bare?]
  | model => simp [bare?]
  | vec => simp [bare?]
  | map => simp [bare?]
  | @option inner plain once =>
    cases inner with
    | option => cases once
    | _ => simp [bare?]

/-- The own type of a struct in a field, boxed. -/
def boxed (own : String) (t : RustType) : RustType :=
  if t.text = own then .box (.model own)
  else if t.text = "Option<" ++ own ++ ">" then .option (.box (.model own))
  else t

theorem bare?_boxed (plain : IsPlain t) :
    (boxed own t).bare? = if t.bare? = some own then none else t.bare? := by
  unfold boxed
  split
  · next here => exact (if_pos ((bare?_eq_own_iff letters plain).2 (.inl here))).symm
  · next notHere =>
    split
    · next inside => exact (if_pos ((bare?_eq_own_iff letters plain).2 (.inr inside))).symm
    · next notInside =>
      refine (if_neg fun shown => ?_).symm
      exact ((bare?_eq_own_iff letters plain).1 shown).elim notHere notInside

omit letters in
theorem fieldType_eq (isRequired : Bool) :
    fieldType own t isRequired = if isRequired then boxed own t else (boxed own t).toOption := rfl

/-- The type of a field shows what the type of its schema shows, but not the own type of the
struct. -/
theorem bare?_fieldType (plain : IsPlain t) (isRequired : Bool) :
    (fieldType own t isRequired).bare? = if t.bare? = some own then none else t.bare? := by
  rw [← bare?_boxed letters plain, fieldType_eq]
  split
  · rfl
  · exact bare?_toOption _

end RustType

/-! ### Types of schemas -/

/-- The component that a schema refers to. -/
def refersTo? (components : Components) (schema : Value) : Option String :=
  ((schema.field "$ref").str?).bind (namedBy components)

/-- Whether a type is one that a schema of a single type has. -/
inductive IsSingle : RustType → Prop
  | json : IsSingle .json
  | scalar {name} (scalar : name ∈ scalarNames) : IsSingle (.builtin name)
  | vec {item} : IsSingle (.vec item)
  | map {value} : IsSingle (.map value)

variable {components : Components} {sub : Value → Lowering RustType} {es : Entries} {t : RustType}

theorem refersTo?_map (es : Entries) : refersTo? components (.map es) =
    ((es.get "$ref").str?).bind (namedBy components) := rfl

theorem isSingle_scalarType {type : String} {format : Value}
    (typed : (scalarType type format).result = .ok t) : IsSingle t := by
  rcases scalarType_cases typed with ⟨-, rfl⟩ | ⟨-, rfl | ⟨name, scalar, rfl⟩⟩
  · exact .json
  · exact .vec
  · exact .scalar scalar

theorem isSingle_typeOfSingle {type : Option String}
    (typed : (typeOfSingle sub es type).result = .ok t) : IsSingle t := by
  unfold typeOfSingle at typed
  split at typed
  · split at typed
    · obtain ⟨item, -, eq⟩ := bind_result_eq_ok_iff.1 typed
      cases eq
      exact .vec
    · cases typed
      exact .vec
  · split at typed
    · obtain ⟨value, -, eq⟩ := bind_result_eq_ok_iff.1 typed
      cases eq
      exact .map
    · cases typed
      exact .json
  · exact isSingle_scalarType typed
  · cases typed
    exact .json

theorem typeOfTypes_cases {types : List String} {nullable : Bool}
    (typed : (typeOfTypes sub es types nullable).result = .ok t) :
    ∃ u, IsSingle u ∧ (t = u ∨ t = .option u) := by
  unfold typeOfTypes at typed
  split at typed
  · cases typed
    exact ⟨_, .json, .inl rfl⟩
  · obtain ⟨u, inner, eq⟩ := bind_result_eq_ok_iff.1 typed
    cases eq
    have single := isSingle_typeOfSingle inner
    refine ⟨u, single, ?_⟩
    split
    · cases single <;> exact .inr rfl
    · exact .inl rfl

/-- The type of a schema is that of the component that it refers to, or else a single type or its
optional form. -/
theorem typeOf_cases {schema : Value} (typed : (typeOf components schema).result = .ok t) :
    (∃ name, refersTo? components schema = some name ∧ t = .model (Name.pascal name)) ∨
      refersTo? components schema = none ∧ ∃ u, IsSingle u ∧ (t = u ∨ t = .option u) := by
  cases schema with
  | map es =>
    rw [typeOf, deepest, typeWithin] at typed
    rw [refersTo?_map, Entries.get]
    cases found : Entries.find? "$ref" es with
    | some ref =>
      rw [typeOfEntries_of_ref found] at typed
      rw [Option.getD_some, typeOfRef_result typed]
      cases ref.str?.bind (namedBy components) with
      | none => exact .inr ⟨rfl, _, .json, .inl rfl⟩
      | some name => exact .inl ⟨name, rfl, rfl⟩
    | none =>
      refine .inr ⟨rfl, ?_⟩
      cases composed : Schema.isComposed es with
      | true =>
        rw [typeOfEntries_of_composed found composed] at typed
        cases typed
        exact ⟨_, .json, .inl rfl⟩
      | false =>
        rw [typeOfEntries_of_plain found composed] at typed
        obtain ⟨read, -, typed⟩ := bind_result_eq_ok_iff.1 typed
        exact typeOfTypes_cases typed
  | _ =>
    cases typed
    exact .inr ⟨rfl, _, .json, .inl rfl⟩

/-! ### Names of models -/

theorem isLower_toUpper {c : Char} (letter : c.isAlphanum = true) : c.toUpper.isLower = false :=
  Name.of_isAlphanum (P := fun d => d.toUpper.isLower = false) (by decide +kernel) letter

theorem isLower_of_head_capitalized {words : List (List Char)} {c : Char}
    (letters : ∀ word ∈ words, ∀ d ∈ word, d.isAlphanum = true)
    (first : (words.flatMap Name.capitalize).head? = some c) : c.isLower = false := by
  induction words with
  | nil => cases first
  | cons word rest ih =>
    obtain ⟨here, others⟩ := List.forall_mem_cons.1 letters
    cases word with
    | nil => exact ih others first
    | cons d ds =>
      cases first
      exact isLower_toUpper (here d List.mem_cons_self)

/-- The name of a model does not begin with a small letter. -/
theorem isLower_of_head_pascal {name : String} {c : Char}
    (first : (Name.pascal name).toList.head? = some c) : c.isLower = false := by
  rw [Name.pascal, String.toList_ofList] at first
  exact isLower_of_head_capitalized (fun _ mem _ => Name.isAlphanum_of_mem_words mem) first

theorem pascal_ne_of_isLower {s : String} (small : s.toList.head?.any Char.isLower = true)
    (name : String) : Name.pascal name ≠ s := by
  rintro rfl
  obtain ⟨c, head, lower⟩ := Option.any_eq_true _ _ |>.1 small
  rw [isLower_of_head_pascal head] at lower
  cases lower

theorem letters_pascal (name : String) : '<' ∉ (Name.pascal name).toList := by
  intro mem
  have letters := Name.isAlphanum_pascal name _ mem
  revert letters
  decide

/-- The only name of a type without parts that a model can have. -/
theorem eq_string_of_scalar {name scalar : String} (mem : scalar ∈ scalarNames)
    (same : scalar = Name.pascal name) : scalar = "String" := by
  have small : ∀ s ∈ scalarNames, s = "String" ∨ s.toList.head?.any Char.isLower = true := by
    decide
  exact (small scalar mem).resolve_right fun first => pascal_ne_of_isLower first name same.symm

theorem isPlain_of_isSingle (single : IsSingle t) : t.IsPlain ∧ t.isOption = false := by
  cases single with
  | json => exact ⟨.builtin (by decide), rfl⟩
  | scalar scalar =>
    have letters : ∀ s ∈ scalarNames, '<' ∉ s.toList := by decide
    exact ⟨.builtin (letters _ scalar), rfl⟩
  | vec => exact ⟨.vec, rfl⟩
  | map => exact ⟨.map, rfl⟩

theorem isPlain_typeOf {schema : Value} (typed : (typeOf components schema).result = .ok t) :
    t.IsPlain := by
  rcases typeOf_cases typed with ⟨name, -, rfl⟩ | ⟨-, u, single, rfl | rfl⟩
  · exact .model (letters_pascal name)
  · exact (isPlain_of_isSingle single).1
  · exact .option (isPlain_of_isSingle single).1 (isPlain_of_isSingle single).2

/-- Whether the type of a schema is that of text, optional or not. -/
def IsText (components : Components) (schema : Value) : Prop :=
  ∃ t, (typeOf components schema).result = .ok t ∧
    (t = .builtin "String" ∨ t = .option (.builtin "String"))

/-- Whether a schema is about the model with a name: it refers to a component of which the model is,
or it is about text, and the model has the name of texts. -/
def Names (components : Components) (schema : Value) (model : String) : Prop :=
  (refersTo? components schema).map Name.pascal = some model ∨
    model = "String" ∧ IsText components schema

/-- A single type shows the name of a model only if that is the name of texts. -/
theorem IsSingle.bare?_iff (single : IsSingle t) (name : String) :
    t.bare? = some (Name.pascal name) ↔ Name.pascal name = "String" ∧ t = .builtin "String" := by
  cases single with
  | json =>
    refine iff_of_false (fun shown => ?_) fun both =>
      absurd (RustType.builtin.inj both.2) (by decide)
    exact pascal_ne_of_isLower (by decide) name (Option.some.inj shown).symm
  | scalar scalar =>
    rw [RustType.bare?, Option.some.injEq, RustType.builtin.injEq]
    constructor
    · intro same
      have string := eq_string_of_scalar scalar same
      exact ⟨same.symm.trans string, string⟩
    · rintro ⟨own, string⟩
      rw [own, string]
  | vec => exact iff_of_false (Option.some_ne_none _ ·.symm) fun both => nomatch both.2
  | map => exact iff_of_false (Option.some_ne_none _ ·.symm) fun both => nomatch both.2

/-- The type of a schema shows the models that the schema is about. -/
theorem bare?_iff {schema : Value} (typed : (typeOf components schema).result = .ok t)
    (name : String) : t.bare? = some (Name.pascal name) ↔
      Names components schema (Name.pascal name) := by
  have text : IsText components schema ↔
      t = .builtin "String" ∨ t = .option (.builtin "String") := by
    rw [IsText, typed]
    simp only [Except.ok.injEq, exists_eq_left']
  rw [Names, text]
  rcases typeOf_cases typed with ⟨other, refers, rfl⟩ | ⟨none, u, single, form⟩
  · rw [refers, Option.map_some, RustType.bare?, or_iff_left]
    rintro ⟨-, eq | eq⟩ <;> cases eq
  · have once := (isPlain_of_isSingle single).2
    have shown : t.bare? = u.bare? := by rcases form with rfl | rfl <;> rfl
    have same : (t = .builtin "String" ∨ t = .option (.builtin "String")) ↔
        u = .builtin "String" := by
      rcases form with rfl | rfl
      · refine or_iff_left ?_
        rintro rfl
        cases once
      · rw [or_iff_right nofun, RustType.option.injEq]
    rw [none, Option.map_none, or_iff_right nofun, same, shown, single.bare?_iff name]

/-! ### Models -/

/-- Whether a model holds the model with a name: it has a type that shows it. -/
def Model.holds (m : Model) (name : String) : Bool := m.types.any (·.bare? == some name)

/-- What a component becomes: a struct of properties, an enum, or an alias. -/
inductive Outline where
  | struct (properties : Entries)
  | enum
  | typeAlias

/-- What a mapping becomes, given the types that it lists. -/
def outlineOf (types : List String) (es : Entries) : Outline :=
  match enumTexts? es with
  | some _ => .enum
  | none =>
    match structProperties? types es with
    | some properties => .struct properties
    | none => .typeAlias

/-- What a component schema becomes, if its types can be read. -/
def outline? (schema : Value) : Option Outline :=
  match schema with
  | .map es =>
    match (typesOf es).result with
    | .ok read => some (outlineOf read.1 es)
    | .error _ => none
  | _ => some .typeAlias

/-- Where the types of a model come from. -/
inductive TypedBy (components : Components) (name : String) (schema : Value) (m : Model) : Prop
  | struct {properties : Entries} {required : List Key} {fields : List Field}
    (outlined : outline? schema = some (.struct properties))
    (typed : (fieldsOf components (Name.pascal name) required properties).result = .ok fields)
    (shape : m.shape = .struct fields) : TypedBy components name schema m
  | enum {variants : List EnumVariant} (outlined : outline? schema = some .enum)
    (shape : m.shape = .enum variants) : TypedBy components name schema m
  | typeAlias {type : RustType} (outlined : outline? schema = some .typeAlias)
    (typed : (typeOf components schema).result = .ok type) (shape : m.shape = .typeAlias type) :
    TypedBy components name schema m

section Models

variable {name : String} {schema : Value} {m : Model}

theorem typedBy_modelOf (built : (modelOf components name schema).result = .ok m) :
    TypedBy components name schema m := by
  unfold modelOf at built
  split at built
  · next es =>
    obtain ⟨read, listed, built⟩ := bind_result_eq_ok_iff.1 built
    have outlined : outline? (.map es) = some (outlineOf read.1 es) := by
      rw [outline?, listed]
    obtain ⟨types, nullable⟩ := read
    dsimp only at built outlined
    rw [outlineOf] at outlined
    split at built
    · next texts values =>
      cases built
      rw [values] at outlined
      exact .enum outlined rfl
    · next values =>
      rw [values] at outlined
      split at built
      · next properties members =>
        rw [members] at outlined
        obtain ⟨required, -, built⟩ := bind_result_eq_ok_iff.1 built
        obtain ⟨fields, typed, built⟩ := bind_result_eq_ok_iff.1 built
        cases built
        exact .struct outlined typed rfl
      · next members =>
        rw [members] at outlined
        obtain ⟨t, typed, built⟩ := bind_result_eq_ok_iff.1 built
        cases built
        exact .typeAlias outlined typed rfl
  · next other =>
    cases built
    cases schema with
    | map es => exact absurd rfl (other es)
    | _ => exact .typeAlias rfl rfl rfl

theorem typeName_modelOf (built : (modelOf components name schema).result = .ok m) :
    m.typeName = Name.pascal name := by
  rw [Model.typeName, modelOf_name components name schema m built]

theorem forall₂_fieldsOf {own : String} {required : List Key} {properties : Entries}
    {fields : List Field}
    (typed : (fieldsOf components own required properties).result = .ok fields) :
    List.Forall₂ (fun p f => ∃ t isRequired, (typeOf components p.2).result = .ok t ∧
      f.type = fieldType own t isRequired) properties fields := by
  induction properties generalizing fields with
  | nil =>
    cases typed
    exact .nil
  | cons p rest ih =>
    obtain ⟨t, here, typed⟩ := bind_result_eq_ok_iff.1 typed
    obtain ⟨wireName, -, typed⟩ := bind_result_eq_ok_iff.1 typed
    obtain ⟨others, after, typed⟩ := bind_result_eq_ok_iff.1 typed
    cases typed
    exact .cons ⟨t, _, here, rfl⟩ (ih after)

/-- Whether the schema of a component is about a model where the own model comes to hold it: as an
alias of it, or with a property of it, unless it is the own model of a struct. -/
def IsAbout (components : Components) (name : String) (schema : Value) (model : String) : Prop :=
  match outline? schema with
  | some .typeAlias => Names components schema model
  | some (.struct properties) =>
    model ≠ Name.pascal name ∧ ∃ p ∈ properties, Names components p.2 model
  | _ => False

theorem bare?_field_iff {t : RustType} (typed : (typeOf components schema).result = .ok t)
    {name other : String} {isRequired : Bool} :
    (fieldType (Name.pascal name) t isRequired).bare? = some (Name.pascal other) ↔
      Name.pascal other ≠ Name.pascal name ∧ Names components schema (Name.pascal other) := by
  rw [RustType.bare?_fieldType (letters_pascal name) (isPlain_typeOf typed), ← bare?_iff typed]
  split
  · next own =>
    refine iff_of_false nofun fun both => both.1 ?_
    exact Option.some.inj (both.2.symm.trans own)
  · next notOwn =>
    refine (and_iff_right_of_imp fun shown same => notOwn ?_).symm
    rw [shown, same]

theorem holds_iff (built : (modelOf components name schema).result = .ok m) (other : String) :
    m.holds (Name.pascal other) = true ↔
      IsAbout components name schema (Name.pascal other) := by
  rw [IsAbout, Model.holds, Model.types, List.any_eq_true]
  cases typedBy_modelOf built with
  | enum outlined shape =>
    rw [outlined, shape]
    exact iff_of_false nofun id
  | typeAlias outlined typed shape =>
    rw [outlined, shape]
    simp only [List.mem_singleton, exists_eq_left, beq_iff_eq]
    exact bare?_iff typed other
  | @struct properties required fields outlined typed shape =>
    rw [outlined, shape]
    simp only [List.mem_map, exists_exists_and_eq_and, beq_iff_eq]
    have each := forall₂_fieldsOf typed
    constructor
    · rintro ⟨f, mem, shown⟩
      obtain ⟨p, member, t, isRequired, typed, eq⟩ := exists_of_forall₂_right each mem
      rw [eq, bare?_field_iff typed] at shown
      exact ⟨shown.1, p, member, shown.2⟩
    · rintro ⟨other, p, member, names⟩
      obtain ⟨f, mem, t, isRequired, typed, eq⟩ := exists_of_forall₂_left each member
      refine ⟨f, mem, ?_⟩
      rw [eq, bare?_field_iff typed]
      exact ⟨other, names⟩

end Models

/-! ### Circles -/

section Circles

variable (components : Components)

/-- Whether a model is that of a component. -/
def IsBuilt (c : String × Value) (m : Model) : Prop :=
  c ∈ components ∧ (modelOf components c.1 c.2).result = .ok m

/-- Whether one model of the components holds another. -/
def Holds (m m' : Model) : Prop :=
  (∃ c, IsBuilt components c m) ∧ (∃ c, IsBuilt components c m') ∧ m.holds m'.typeName = true

/-- Whether there are models of two components, and the schema of the first is about the second. -/
def LinksTo (c c' : String × Value) : Prop :=
  (∃ m, IsBuilt components c m) ∧ (∃ m, IsBuilt components c' m) ∧
    IsAbout components c.1 c.2 (Name.pascal c'.1)

variable {components} {c c' : String × Value} {m m' : Model}

theorem typeName_of_isBuilt (built : IsBuilt components c m) : m.typeName = Name.pascal c.1 :=
  typeName_modelOf built.2

theorem holds_iff_linksTo (built : IsBuilt components c m) (built' : IsBuilt components c' m') :
    Holds components m m' ↔ LinksTo components c c' := by
  rw [Holds, LinksTo, typeName_of_isBuilt built', holds_iff built.2]
  exact ⟨fun h => ⟨⟨m, built⟩, ⟨m', built'⟩, h.2.2⟩, fun h => ⟨⟨c, built⟩, ⟨c', built'⟩, h.2.2⟩⟩

open Relation (TransGen)

theorem linksTo_of_holds (path : TransGen (Holds components) m m')
    (built : IsBuilt components c m) (built' : IsBuilt components c' m') :
    TransGen (LinksTo components) c c' := by
  induction path generalizing c' with
  | single step => exact .single ((holds_iff_linksTo built built').1 step)
  | tail _ step ih =>
    obtain ⟨d, between⟩ := step.1
    exact (ih between).tail ((holds_iff_linksTo between built').1 step)

theorem holds_of_linksTo (path : TransGen (LinksTo components) c c')
    (built : IsBuilt components c m) (built' : IsBuilt components c' m') :
    TransGen (Holds components) m m' := by
  induction path generalizing m' with
  | single step => exact .single ((holds_iff_linksTo built built').2 step)
  | tail _ step ih =>
    obtain ⟨between, here⟩ := step.1
    exact (ih here).tail ((holds_iff_linksTo here built').2 step)

/-- A struct does not hold itself. -/
theorem not_holds_self {fields : List Field} (shape : m.shape = .struct fields) :
    ¬Holds components m m := by
  intro holds
  obtain ⟨c, built⟩ := holds.1
  obtain ⟨-, -, about⟩ := (holds_iff_linksTo built built).1 holds
  rw [IsAbout] at about
  cases typedBy_modelOf built.2 with
  | struct outlined =>
    rw [outlined] at about
    exact about.1 rfl
  | enum _ shape' => cases shape.symm.trans shape'
  | typeAlias _ _ shape' => cases shape.symm.trans shape'

end Circles

open Relation (TransGen)

/-- **Which models hold themselves.** Some model holds itself, at once or through others, exactly if
some component is linked to itself, at once or through others; and a struct never holds itself at
once. -/
theorem holds_cycle_iff (components : Components) :
    ((∃ m, TransGen (Holds components) m m) ↔ ∃ c, TransGen (LinksTo components) c c) ∧
      ∀ m fields, m.shape = .struct fields → ¬Holds components m m := by
  refine ⟨⟨?_, ?_⟩, fun m fields shape => not_holds_self shape⟩
  · rintro ⟨m, path⟩
    obtain ⟨m', step, -⟩ := TransGen.head'_iff.1 path
    obtain ⟨c, built⟩ := step.1
    exact ⟨c, linksTo_of_holds path built built⟩
  · rintro ⟨c, path⟩
    obtain ⟨c', step, -⟩ := TransGen.head'_iff.1 path
    obtain ⟨m, built⟩ := step.1
    exact ⟨m, holds_of_linksTo path built built⟩

/-- A node that has the next one. -/
def nodeSchema : Value :=
  .map [(.str "type", .str "object"), (.str "properties",
    .map [(.str "next", .map [(.str "$ref", .str "#/components/schemas/Link")])])]

/-- An alias of the node. -/
def linkSchema : Value := .map [(.str "$ref", .str "#/components/schemas/Node")]

/-- A node that has the next one through an alias. -/
def nodes : Components := [("Node", nodeSchema), ("Link", linkSchema)]

/-- The name of the model of a component, and whether it holds the model with another name. -/
def heldBy (components : Components) (name : String) (schema : Value) (other : String) :
    Except Failure (String × Bool) :=
  (modelOf components name schema).result.map fun m => (m.typeName, m.holds other)

theorem exists_of_heldBy {components : Components} {c : String × Value} {own other : String}
    (mem : c ∈ components) (held : heldBy components c.1 c.2 other = .ok (own, true)) :
    ∃ m, IsBuilt components c m ∧ m.typeName = own ∧ m.holds other = true := by
  obtain ⟨m, built, shown⟩ := map_eq_ok_iff.1 held
  obtain ⟨named, holds⟩ := Prod.mk.inj shown
  exact ⟨m, ⟨mem, built⟩, named, holds⟩

theorem node_holds_itself : ∃ m, TransGen (Holds nodes) m m := by
  obtain ⟨node, nodeBuilt, nodeName, forth⟩ : ∃ m, IsBuilt nodes ("Node", nodeSchema) m ∧
      m.typeName = "Node" ∧ m.holds "Link" = true :=
    exists_of_heldBy List.mem_cons_self (by decide +kernel)
  obtain ⟨link, linkBuilt, linkName, back⟩ : ∃ m, IsBuilt nodes ("Link", linkSchema) m ∧
      m.typeName = "Link" ∧ m.holds "Node" = true :=
    exists_of_heldBy (List.mem_cons_of_mem _ List.mem_cons_self) (by decide +kernel)
  have there : Holds nodes node link := ⟨⟨_, nodeBuilt⟩, ⟨_, linkBuilt⟩, linkName ▸ forth⟩
  have again : Holds nodes link node := ⟨⟨_, linkBuilt⟩, ⟨_, nodeBuilt⟩, nodeName ▸ back⟩
  exact ⟨node, .tail (.single there) again⟩

end ClientGen.Crate
