import ClientGen.Name.Words
import ClientGen.Report.Basic
import ClientGen.Schema.Basic
import ClientGen.Text.CodePoint

/-!
# The Rust type of a schema

Schemas become the types that a model's fields have. What has no type of its own, such as a
combination of schemas or a choice of several types, becomes a JSON value. Fields, modules and enum
variants have names that are no keywords: a name that is one is written as a raw identifier.
-/

namespace ClientGen.Crate

/-! ## Identifiers -/

/-- Keywords, those reserved for later included. -/
def keywords : List String := [
  "as", "break", "const", "continue", "crate", "else", "enum", "extern", "false", "fn", "for", "if",
  "impl", "in", "let", "loop", "match", "mod", "move", "mut", "pub", "ref", "return", "self",
  "Self", "static", "struct", "super", "trait", "true", "type", "unsafe", "use", "where", "while",
  "async", "await", "dyn", "abstract", "become", "box", "do", "final", "macro", "override", "priv",
  "typeof", "unsized", "virtual", "yield", "try"]

/-- A name written so that it is no keyword. -/
def escapeKeyword (name : String) : String :=
  if keywords.contains name then "r#" ++ name else name

/-- A name with every code point outside identifiers replaced by an underscore, and with an
underscore before a leading digit. -/
def identifierText (name : String) : String :=
  let cs := (Text.codes name.toList).map fun n =>
    let c := Char.ofNat n
    if c.isAlphanum || c = '_' then c else '_'
  String.ofList (if cs.head?.any Char.isDigit then '_' :: cs else cs)

/-- The name of a struct field. -/
def fieldName (name : String) : String :=
  let converted := escapeKeyword (Name.snake (identifierText name))
  if converted.isEmpty then "field" else converted

/-- Whether a field is written on the wire under another name than its own. -/
def needsRename (fieldName wireName : String) : Bool :=
  (Text.afterPrefix? "r#" fieldName).getD fieldName != wireName

/-! ## Rust types -/

/-- A type of a field. -/
inductive RustType where
  /-- A type of the standard library or of the JSON library. -/
  | builtin (name : String)
  /-- The model of a component schema. -/
  | model (name : String)
  | vec (item : RustType)
  /-- A hash map with text keys. -/
  | map (value : RustType)
  | option (inner : RustType)
  | box (inner : RustType)
deriving DecidableEq, Repr

namespace RustType

/-- The type of any JSON value. -/
def json : RustType := builtin "serde_json::Value"

/-- The text of a type. -/
def text : RustType → String
  | builtin name => name
  | model name => name
  | vec item => "Vec<" ++ item.text ++ ">"
  | map value => "HashMap<String, " ++ value.text ++ ">"
  | option inner => "Option<" ++ inner.text ++ ">"
  | box inner => "Box<" ++ inner.text ++ ">"

/-- Whether a type is optional. -/
def isOption : RustType → Bool
  | option _ => true
  | _ => false

/-- The optional form of a type; an optional type is its own. -/
def toOption : RustType → RustType
  | option inner => option inner
  | t => option t

/-- Whether a type has a hash map in it. -/
def hasMap : RustType → Bool
  | map _ => true
  | vec t => t.hasMap
  | option t => t.hasMap
  | box t => t.hasMap
  | _ => false

/-- The names in the text of a type, those of the type constructors included. -/
def words : RustType → List String
  | builtin name => [name]
  | model name => [name]
  | vec item => "Vec" :: item.words
  | map value => "HashMap" :: "String" :: value.words
  | option inner => "Option" :: inner.words
  | box inner => "Box" :: inner.words

end RustType

/-- The text of the optional form of a type, given the text of the type. -/
def optionalText (type : String) : String :=
  if Text.startsWith "Option<" type then type else "Option<" ++ type ++ ">"

/-- A step of the backend. -/
abbrev Lowering := Report Warning

/-! ## Types of values without parts -/

/-- The types that a schema lists, apart from `null`, and whether it takes `null`. -/
def typesOf (es : Entries) : Lowering (List String × Bool) := do
  let types ← match es.get "type" with
    | .str s => pure [s]
    | v =>
      if v.truthy then (List.filterMap Value.str?) <$> Report.ofOption v.listed? else pure []
  return (types.filter (· != "null"), types.contains "null" || (es.get "nullable").isTrue)

/-- The types of a schema type by format; the first one is for every other format. -/
def formatsOf? (type : String) : Option (String × List (String × String)) :=
  match type with
  | "string" => some ("String", [
      ("date", "String"), ("date-time", "String"), ("byte", "String"), ("binary", "Vec<u8>")])
  | "integer" => some ("i64", [
      ("int32", "i32"), ("int64", "i64"), ("uint32", "u32"), ("uint64", "u64")])
  | "number" => some ("f64", [("float", "f32"), ("double", "f64")])
  | "boolean" => some ("bool", [])
  | _ => none

/-- The type of a schema type with a format. A format that is no scalar cannot be looked up. -/
def scalarType (type : String) (format : Value) : Lowering RustType :=
  match formatsOf? type with
  | none => pure .json
  | some (usual, formats) =>
    match format with
    | .list _ | .map _ | .set _ | .loop _ => Report.malformed
    | .str s =>
      match formats.lookup s with
      | some "Vec<u8>" => pure (.vec (.builtin "u8"))
      | some name => pure (.builtin name)
      | none => pure (.builtin usual)
    | _ => pure (.builtin usual)

/-- The schema type of a constant. -/
def typeOfConst : Value → String
  | .bool _ => "boolean"
  | .int _ => "integer"
  | .float _ => "number"
  | .str _ => "string"
  | _ => "object"

/-- The schema type that the keywords of a schema imply. -/
def impliedType? (es : Entries) : Option String :=
  if es.has "properties" || es.has "additionalProperties" then some "object"
  else if es.has "items" then some "array"
  else none

/-! ## Types of all values -/

/-- The type of a reference. -/
def typeOfRef (components : Schema.Components) (ref : Value) : Lowering RustType := do
  let text ← Report.ofText ref.shown
  match (Schema.componentOf? text).filter fun name => (components.lookup name).isSome with
  | some name => return .model (Name.pascal name)
  | none =>
    Report.note (.unresolvedRustType text)
    return .json

/-- The type of a schema of one type; `sub` gives the types of schemas inside. -/
def typeOfSingle (sub : Value → Lowering RustType) (es : Entries) :
    (type : Option String) → Lowering RustType
  | some "array" =>
    match es.get "items" with
    | .map items => do return .vec (← sub (.map items))
    | _ => pure (.vec .json)
  | some "object" =>
    match (es.get "properties").truthy, es.get "additionalProperties" with
    | false, .map additional => do return .map (← sub (.map additional))
    | _, _ => pure .json
  | some type => scalarType type (es.get "format")
  | none => pure .json

/-- The type of a schema that is a mapping; `sub` gives the types of schemas inside. -/
def typeOfEntries (components : Schema.Components) (sub : Value → Lowering RustType)
    (es : Entries) : Lowering RustType :=
  match es.find? "$ref" with
  | some ref => typeOfRef components ref
  | none =>
    if Schema.isComposed es then pure .json
    else do
      let (listed, nullable) ← typesOf es
      let types := match listed, es.find? "const" with
        | [], some value => [typeOfConst value]
        | types, _ => types
      match types with
      | _ :: _ :: _ => return .json
      | _ =>
        let type ← typeOfSingle sub es (types.head?.or (impliedType? es))
        return if nullable then type.toOption else type

/-- How deep schemas may nest. -/
def deepest : Nat := 495

/-- The type of a schema that stands in others, of which `left` more may nest. -/
def typeWithin (components : Schema.Components) : (left : Nat) → Value → Lowering RustType
  | left + 1, .map es => typeOfEntries components (typeWithin components left) es
  | 0, .map _ => Report.malformed
  | _, _ => pure .json

/-- The type of a schema. -/
def typeOf (components : Schema.Components) (schema : Value) : Lowering RustType :=
  typeWithin components deepest schema

end ClientGen.Crate
