import ClientGen.Json.Writer
import ClientGen.Name.Identifier
import ClientGen.Text.Blank

/-!
# Schemas

A schema is kept as the mapping that the document holds. Here are its keywords as far as they are
read the same way everywhere: references to other schemas, the list of types, the names that are
required, and the texts of literal values.
-/

namespace ClientGen.Schema

/-- What a reference to a component schema begins with. -/
def refPrefix : String := "#/components/schemas/"

/-- The component that a reference names, if it names one. -/
def componentOf? (ref : String) : Option String := Text.afterPrefix? refPrefix ref

/-- The name to show for a reference: that of its component, or else its last segment. -/
def displayName (ref : String) : String :=
  match componentOf? ref with
  | some name => if name.isEmpty then "" else name
  | none => ((Text.splitAt '/' ref).getLast?).getD ref

/-- The component schemas of a document, by name. -/
abbrev Components := List (String × Value)

/-- The mapping that a component is, if it is one. -/
def component? (components : Components) (name : String) : Option Entries :=
  (components.lookup name).bind Value.map?

/-- Sets the value of a name in a list of pairs, keeping its place. -/
def setPair {β : Type} (name : String) (value : β) : List (String × β) → List (String × β)
  | [] => [(name, value)]
  | (n, v) :: rest => if n = name then (n, value) :: rest else (n, v) :: setPair name value rest

/-- The keywords that combine schemas, in the order in which they are read. -/
def compositionKeywords : List String := ["oneOf", "anyOf", "allOf"]

/-- Whether a schema combines others. -/
def isComposed (es : Entries) : Bool := compositionKeywords.any es.has

/-- The types that a schema lists. -/
def typesOf (es : Entries) : Except Textless (List String) :=
  match es.get "type" with
  | .str s => .ok [s]
  | .list items => items.mapM Value.shown
  | _ => .ok []

/-- Whether a schema is about objects, by its types or else by its keywords. -/
def isObject (es : Entries) : Except Textless Bool := do
  match ← typesOf es with
  | [] => return es.has "properties" || es.has "additionalProperties"
  | types => return types.contains "object"

/-- The keys that a `required` keyword lists; `none` where it can list none. -/
def requiredKeys? (v : Value) : Option (List Key) :=
  if !v.truthy then some []
  else v.listed?.bind fun items => (items.mapM Value.memberKeys?).map List.flatten

/-- The entries that a `properties` keyword lists; `none` where it can list none. -/
def propertyEntries? (v : Value) : Option Entries :=
  if !v.truthy then some [] else v.map?

/-- Whether a key is among those required. -/
def isRequired (required : List Key) (k : Key) : Bool := required.any (·.same k)

/-- The keywords that document a schema, as one text. -/
def documentation (es : Entries) : Option String :=
  let title := es.get "title"
  let described := match (es.get "description").present?.getD title with
    | .str s => if Text.allBlank s then [] else [Text.trim s]
    | _ => []
  let parts := described ++ if (es.get "deprecated").isTrue then ["@deprecated"] else []
  if parts.isEmpty then none else some (Text.unlines parts)

/-- Whether a property is marked as read only. -/
def isReadOnly (schema : Value) : Bool := (schema.field "readOnly").isTrue

/-! ## Texts of literal values -/

/-- The source text of a value as a literal type. Lists and mappings have no literal type and are
written as a string that holds their JSON text. -/
def literalText : Value → Except Textless String
  | .list items => Json.quote <$> Json.write true (.list items)
  | .map entries => Json.quote <$> Json.write true (.map entries)
  | .pair a b => Json.quote <$> Json.write true (.pair a b)
  | .null => .ok (Json.quote "null")
  | v => Json.write true v

/-- The source text of a value of an enumeration, where truth values are strings. -/
def enumValueText : Value → Except Textless String
  | .bool b => .ok (Json.quote (Json.truthText b))
  | v => literalText v

end ClientGen.Schema
