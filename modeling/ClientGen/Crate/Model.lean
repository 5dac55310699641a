import ClientGen.Decl.Basic
import ClientGen.Name.Identifier
import ClientGen.Crate.Type

/-!
# Rust models

A component schema becomes a struct if it has properties, an enum if it lists texts, and an alias
otherwise. A field of the struct's own type is boxed, and fields that may be missing are optional.
-/

namespace ClientGen.Crate

/-- A field of a struct. -/
structure Field where
  wireName : String
  name : String
  type : RustType
  isRequired : Bool
  description : Value

/-- A variant of an enum. -/
structure EnumVariant where
  name : String
  value : String
deriving DecidableEq, Repr

/-- What a model is. -/
inductive Shape where
  | struct (fields : List Field)
  | enum (variants : List EnumVariant)
  | typeAlias (type : RustType)

/-- The model of a component schema. -/
structure Model where
  /-- The name of the component. -/
  name : String
  description : Value
  shape : Shape
  /-- The other models that this one uses. -/
  references : List String

namespace Model

/-- The word for a shape. -/
def kind (m : Model) : String :=
  match m.shape with
  | .struct _ => "struct"
  | .enum _ => "enum"
  | .typeAlias _ => "alias"

/-- The name of the type. -/
def typeName (m : Model) : String := Name.pascal m.name

/-- The name of the file, without its ending. -/
def fileName (m : Model) : String := Name.snake m.name

/-- The name of the module. -/
def moduleName (m : Model) : String := escapeKeyword m.fileName

/-- The types that a model is made of. -/
def types (m : Model) : List RustType :=
  match m.shape with
  | .struct fields => fields.map (·.type)
  | .enum _ => []
  | .typeAlias t => [t]

/-- What the module of a model imports. -/
def useStatements (m : Model) : List String :=
  (match m.shape with
    | .typeAlias _ => []
    | _ => ["use serde::\x7bDeserialize, Serialize\x7d;"])
  ++ (if m.types.any (·.hasMap) then ["use std::collections::HashMap;"] else [])
  ++ m.references.map fun name => "use crate::models::" ++ name ++ ";"

end Model

/-! ## Variants -/

/-- The name that a text gives to a variant. -/
def variantBase (value : String) : String :=
  let base := Name.pascal (identifierText value)
  if base.isEmpty then "Empty"
  else if base.toList.head?.any Char.isDigit then "Value" ++ base
  else base

/-- Variants for texts, with names that differ from those `used` and from one another. -/
def variantsAfter (used : List String) : List String → List EnumVariant
  | [] => []
  | value :: rest =>
    let name := Name.distinctFrom used (variantBase value)
    ⟨name, value⟩ :: variantsAfter (name :: used) rest

/-- The texts of a list that holds nothing else. -/
def allTexts? (values : List Value) : Option (List String) := values.mapM Value.str?

/-- The texts that make a schema an enum. -/
def enumTexts? (es : Entries) : Option (List String) :=
  match es.get "enum" with
  | .list (first :: rest) => allTexts? (first :: rest)
  | _ => none

/-! ## Structs -/

/-- The names of other models in types, in ascending order. -/
def modelReferences (components : Schema.Components) (own : String) (types : List RustType) :
    List String :=
  let models := components.map fun c => Name.pascal c.1
  sortedNames ((types.flatMap RustType.words).filter fun word =>
    !word.isEmpty && models.contains word && word != own)

/-- The type of a field: boxed if it is the own type of the struct, and optional unless it is
required. -/
def fieldType (own : String) (type : RustType) (isRequired : Bool) : RustType :=
  let boxed :=
    if type.text = own then .box (.model own)
    else if type.text = "Option<" ++ own ++ ">" then .option (.box (.model own))
    else type
  if isRequired then boxed else boxed.toOption

/-- The fields for properties. -/
def fieldsOf (components : Schema.Components) (own : String) (required : List Key) :
    Entries → Lowering (List Field)
  | [] => pure []
  | (key, schema) :: rest => do
    let type ← typeOf components schema
    let wireName ← Report.ofOption (Value.ofKey key).str?
    let isRequired := Schema.isRequired required key
    let others ← fieldsOf components own required rest
    return {
      wireName
      name := fieldName wireName
      type := fieldType own type isRequired
      isRequired
      description := schema.field "description" } :: others

/-- The properties that make a schema a struct. -/
def structProperties? (types : List String) (es : Entries) : Option Entries :=
  match es.get "properties" with
  | .map (first :: rest) =>
    if (types.contains "object" || types.isEmpty) && !Schema.isComposed es then some (first :: rest)
    else none
  | _ => none

/-! ## Models -/

/-- The model of a component schema. -/
def modelOf (components : Schema.Components) (name : String) (schema : Value) :
    Lowering Model :=
  match schema with
  | .map es => do
    let own := Name.pascal name
    let description := (Entries.get "description" es).present?.getD (Entries.get "title" es)
    let (types, _) ← typesOf es
    match enumTexts? es with
    | some texts =>
      let shape := .enum (variantsAfter [] texts.eraseDups)
      return { name, description, shape, references := [] }
    | none =>
      match structProperties? types es with
      | some properties =>
        let required ← Report.ofOption (Schema.requiredKeys? (Entries.get "required" es))
        let fields ← fieldsOf components own required properties
        let references := modelReferences components own (fields.map (·.type))
        return { name, description, shape := .struct fields, references }
      | none =>
        let type ← typeOf components schema
        let references := modelReferences components own [type]
        return { name, description, shape := .typeAlias type, references }
  | _ => pure { name, description := .null, shape := .typeAlias .json, references := [] }

end ClientGen.Crate
