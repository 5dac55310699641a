import ClientGen.Report.Basic
import ClientGen.Schema.Basic
import ClientGen.TypeExpr.Normal

/-!
# The type of a schema

`lower` gives the type expression of a schema. References become names and are not followed, so the
only recursion is into nested schemas; `budget` counts the levels that are left, and a schema below
the last one is replaced by `any`, or by its name if it is a reference.
-/

namespace ClientGen.Schema

/-- What lowering tells along the way. -/
inductive Note where
  | warning (w : Warning)
  /-- The declared type tells its variants apart by a property. -/
  | discriminator (typeName property : String)
deriving DecidableEq, Repr

/-- The component schemas in view, and how deep schemas may nest. -/
structure Scope where
  components : Components
  maxDepth : Int := 64

/-- The levels of nesting that a schema outside any other has. -/
def Scope.budget (scope : Scope) : Nat := scope.maxDepth.toNat

/-- A lowering step. -/
abbrev Lowering := Report Note

/-- Gives a warning. -/
def warn (w : Warning) : Lowering Unit := Report.note (.warning w)

/-- The primitive type that a schema type becomes; formats make no difference. -/
def primitiveOf? (type : String) : Option TypeExpr :=
  match type with
  | "string" => some .string
  | "integer" => some .number
  | "number" => some .number
  | "boolean" => some .boolean
  | "null" => some .null
  | _ => none

/-- The type of a reference: the name of the component, or `any` where there is none. -/
def lowerReference (scope : Scope) (ref : String) : Lowering TypeExpr :=
  match (componentOf? ref).filter fun name => (component? scope.components name).isSome with
  | some name => pure (.named (Name.typeName name))
  | none => do
    warn (.unresolvedType ref)
    return .any

/-- The type of a single value. -/
def lowerLiteral : Value → Lowering TypeExpr
  | .null => pure .null
  | v => do return .literal (← Report.ofText (literalText v))

/-- Runs a step on each item in turn. -/
def eachOf {α β : Type} (f : α → Lowering β) : List α → Lowering (List β)
  | [] => pure []
  | a :: rest => do
    let b ← f a
    let bs ← eachOf f rest
    return b :: bs

section Parts

variable (sub : Value → Lowering TypeExpr)

/-- The properties of an object type. -/
def lowerMembers (required : List Key) (properties : Entries) :
    Lowering (List (Member TypeExpr)) :=
  eachOf (fun (key, schema) => do
    let name ← Report.ofText key.shown
    let type ← sub schema
    return ⟨name, type, !isRequired required key, isReadOnly schema⟩) properties

/-- The type of values under keys that are not listed, where a schema allows any. -/
def lowerAdditional (additional : Value) : Lowering (Option TypeExpr) :=
  match additional with
  | .bool true => pure (some .any)
  | .map [] => pure (some .any)
  | .map es => do return some (← sub (.map es))
  | _ => pure none

/-- The type of an object schema. -/
def lowerObject (es : Entries) : Lowering TypeExpr := do
  let required ← Report.ofOption (requiredKeys? (es.get "required"))
  let properties ← Report.ofOption (propertyEntries? (es.get "properties"))
  let members ← lowerMembers sub required properties
  let additional ← lowerAdditional sub (es.get "additionalProperties")
  match members, additional with
  | _ :: _, some value => return .interOf [.object members, .index "string" value]
  | _ :: _, none => return .object members
  | [], some value => return .index "string" value
  | [], none =>
    match es.get "additionalProperties" with
    | .bool false => return .object []
    | _ => return .any

/-- The type of an array schema: a tuple where it lists the first items. -/
def lowerArray (es : Entries) : Lowering TypeExpr :=
  match es.get "prefixItems" with
  | .list (first :: rest) => do return .tuple (← eachOf sub (first :: rest))
  | _ =>
    match es.get "items" with
    | .null => pure (.array .any)
    | .bool false => pure (.array .any)
    | items => do return .array (← sub items)

/-- The type of a schema of one type. -/
def lowerSingle (es : Entries) (type : String) : Lowering TypeExpr :=
  match primitiveOf? type with
  | some t => pure t
  | none =>
    if type = "array" then lowerArray sub es
    else if type = "object" then lowerObject sub es
    else do
      warn (.unknownType type)
      return .any

/-- The type of a combining keyword, if it lists any schema. -/
def lowerKeyword (es : Entries) (keyword : String) : Lowering (List TypeExpr) :=
  match es.get keyword with
  | .list (first :: rest) => do
    let types ← eachOf sub (first :: rest)
    return [if keyword = "allOf" then .interOf types else .unionOf types]
  | _ => pure []

/-- The type of a schema that combines others: all of its parts together, its own properties
included. -/
def lowerComposition (es : Entries) : Lowering TypeExpr := do
  let parts ← eachOf (lowerKeyword sub es) compositionKeywords
  let hasOwn := (es.get "properties").truthy || (es.get "additionalProperties").isMap
  let own ← if hasOwn then List.singleton <$> lowerObject sub es else pure []
  let all := parts.flatten ++ own
  let type : TypeExpr := if all.isEmpty then .any else .interOf all
  let types ← Report.ofText (typesOf es)
  return if types.contains "null" then .unionOf [type, .null] else type

/-- The types that a schema stands for, by its types or else by its keywords. -/
def impliedTypes (es : Entries) : Except Textless (List String) := do
  match ← typesOf es with
  | [] =>
    if es.has "properties" || es.has "additionalProperties" then return ["object"]
    else if es.has "items" || es.has "prefixItems" then return ["array"]
    else return []
  | types => return types

/-- The type of a schema, apart from `nullable`. The keywords are looked at in a fixed order, and
the first that applies decides. -/
def lowerEntries (scope : Scope) (es : Entries) : Lowering TypeExpr :=
  match es.get "$ref" with
  | .str ref => lowerReference scope ref
  | _ =>
    match es.find? "const" with
    | some value => lowerLiteral value
    | none =>
      match es.get "enum" with
      | .list (first :: rest) => do return .unionOf (← eachOf lowerLiteral (first :: rest))
      | _ =>
        if isComposed es then lowerComposition sub es
        else do
          match ← Report.ofText (impliedTypes es) with
          | [] => pure .any
          | types => do return .unionOf (← eachOf (lowerSingle sub es) types)

end Parts

/-- The type of a schema below the deepest level. -/
def fallback (scope : Scope) (es : Entries) : TypeExpr :=
  match es.get "$ref" with
  | .str ref =>
    match (componentOf? ref).filter fun name => (component? scope.components name).isSome with
    | some name => .named (Name.typeName name)
    | none => .any
  | _ => .any

/-- The type of a schema with `budget` levels of nesting left. -/
def lowerWithin (scope : Scope) : (budget : Nat) → Value → Lowering TypeExpr
  | _, .bool true => pure .any
  | _, .bool false => pure .never
  | 0, .map es => do
    warn (.depthExceeded scope.maxDepth)
    return fallback scope es
  | budget + 1, .map es => do
    let type ← lowerEntries (lowerWithin scope budget) scope es
    return if (Entries.get "nullable" es).isTrue then .unionOf [type, .null] else type
  | _, _ => pure .any

/-- The type of a schema. -/
def lower (scope : Scope) (schema : Value) : Lowering TypeExpr :=
  lowerWithin scope scope.budget schema

end ClientGen.Schema
