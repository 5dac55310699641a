import ClientGen.Schema.Declare

/-!
# The mapper

The mapper gives schemas their types (`Mapper.map`) and named schemas their declarations
(`Mapper.declare`), in a context that all steps share and change: the names that are being resolved
and how deep the schema at hand is nested. A block that is run for a name (`resolving`) or one level
down (`descend`) puts the context back when it ends, also when it ends in a failure. Schemas may nest
as deep as the context allows: `levels` counts the levels that are left where a schema stands.
-/

namespace ClientGen.Schema

/-! ## Contexts -/

/-- What the steps of a mapper share. -/
structure Context where
  stack : Stack := []
  depth : Int := 0
deriving DecidableEq, Repr

namespace Context

/-- Whether a name is being resolved. -/
def isResolving (c : Context) (name : String) : Bool := c.stack.contains name

/-- Marks a name as being resolved. -/
def push (c : Context) (name : String) : Context := { c with stack := pushName c.stack name }

/-- Marks a name as resolved. -/
def pop (c : Context) (name : String) : Context :=
  { c with stack := c.stack.filter (· != name) }

/-- The context one level of nesting further down. -/
def deeper (c : Context) : Context := { c with depth := c.depth + 1 }

/-- The context one level of nesting further up. -/
def shallower (c : Context) : Context := { c with depth := c.depth - 1 }

end Context

/-- A step in a context. It leaves a context behind however it ends. -/
def Mapping (α : Type) := Context → Lowering α × Context

namespace Mapping

variable {α β : Type}

/-- A step that ends in `a` and leaves the context alone. -/
def done (a : α) : Mapping α := fun c => (Report.done a, c)

/-- A step and then the step for its value, in the context that the first one left. A failure ends
both. -/
def andThen (x : Mapping α) (f : α → Mapping β) : Mapping β := fun c =>
  match x c with
  | (⟨notes, .ok a⟩, c') => (⟨notes ++ (f a c').1.notes, (f a c').1.result⟩, (f a c').2)
  | (⟨notes, .error e⟩, c') => (⟨notes, .error e⟩, c')

instance : Monad Mapping where
  pure := done
  bind := andThen

/-- A step that does not look at the context. -/
def report (r : Lowering α) : Mapping α := fun c => (r, c)

/-- The context. -/
def context : Mapping Context := fun c => (Report.done c, c)

/-- Changes the context. -/
def change (f : Context → Context) : Mapping Unit := fun c => (Report.done (), f c)

/-- A block, after which the context is changed however the block ended. -/
def ensuring (block : Mapping α) (f : Context → Context) : Mapping α := fun c =>
  ((block c).1, f (block c).2)

/-- A block while a name is being resolved. A name that is being resolved already stays so. -/
def resolving (name : String) (block : Mapping α) : Mapping α := do
  if (← context).isResolving name then block
  else
    change (·.push name)
    ensuring block (·.pop name)

/-- A block one level of nesting down, which is told whether that is within the limit. -/
def descend (limit : Int) (block : Bool → Mapping α) : Mapping α := do
  change Context.deeper
  ensuring (do block ((← context).depth ≤ limit)) Context.shallower

/-- Runs a step on each item in turn. -/
def each (f : α → Mapping β) : List α → Mapping (List β)
  | [] => pure []
  | a :: rest => do
    let b ← f a
    let bs ← each f rest
    return b :: bs

end Mapping

end ClientGen.Schema

namespace ClientGen.Schema.Mapper

open Mapping (report resolving descend each context)

/-! ## Types -/

section Parts

variable (sub : Value → Mapping TypeExpr)

/-- The properties of an object type. -/
def members (required : List Key) (properties : Entries) : Mapping (List (Member TypeExpr)) :=
  each (fun (key, schema) => do
    let name ← report (Report.ofText key.shown)
    let type ← sub schema
    return ⟨name, type, !isRequired required key, isReadOnly schema⟩) properties

/-- The type of values under keys that are not listed, where a schema allows any. -/
def additional : Value → Mapping (Option TypeExpr)
  | .bool true => pure (some .any)
  | .map [] => pure (some .any)
  | .map es => do return some (← sub (.map es))
  | _ => pure none

/-- The type of an object with these properties, and with these values under other keys. `allowed`
is what the schema says of other keys. -/
def objectType (allowed : Value) : List (Member TypeExpr) → Option TypeExpr → TypeExpr
  | m :: ms, some value => .interOf [.object (m :: ms), .index "string" value]
  | m :: ms, none => .object (m :: ms)
  | [], some value => .index "string" value
  | [], none =>
    match allowed with
    | .bool false => .object []
    | _ => .any

/-- The type of an object schema. -/
def object (es : Entries) : Mapping TypeExpr := do
  let required ← report (Report.ofOption (requiredKeys? (es.get "required")))
  let properties ← report (Report.ofOption (propertyEntries? (es.get "properties")))
  let members ← members sub required properties
  let value ← additional sub (es.get "additionalProperties")
  return objectType (es.get "additionalProperties") members value

/-- The type of an array of items of one schema. -/
def items : Value → Mapping TypeExpr
  | .null => pure (.array .any)
  | .bool false => pure (.array .any)
  | schema => do return .array (← sub schema)

/-- The type of an array schema: a tuple where it lists the first items. -/
def array (es : Entries) : Mapping TypeExpr :=
  match es.get "prefixItems" with
  | .list (first :: rest) => do return .tuple (← each sub (first :: rest))
  | _ => items sub (es.get "items")

/-- The type of a schema of one type. -/
def single (es : Entries) (type : String) : Mapping TypeExpr :=
  match primitiveOf? type with
  | some t => pure t
  | none =>
    if type = "array" then array sub es
    else if type = "object" then object sub es
    else do
      report (warn (.unknownType type))
      return .any

/-- The type of a combining keyword, if it lists any schema. -/
def keyword (es : Entries) (keyword : String) : Mapping (List TypeExpr) :=
  match es.get keyword with
  | .list (first :: rest) => do
    let types ← each sub (first :: rest)
    return [if keyword = "allOf" then .interOf types else .unionOf types]
  | _ => pure []

/-- The type of a combination's own properties, where it has any. -/
def own (es : Entries) : Mapping (List TypeExpr) :=
  if (es.get "properties").truthy || (es.get "additionalProperties").isMap then do
    return [← object sub es]
  else pure []

/-- The type of a schema that combines others. -/
def composition (es : Entries) : Mapping TypeExpr := do
  let parts ← each (keyword sub es) compositionKeywords
  let own ← own sub es
  let all := parts.flatten ++ own
  let type : TypeExpr := if all.isEmpty then .any else .interOf all
  let types ← report (Report.ofText (typesOf es))
  return if types.contains "null" then .unionOf [type, .null] else type

/-- The type of a schema that neither refers to another nor lists values. -/
def unlisted (es : Entries) : Mapping TypeExpr :=
  if isComposed es then composition sub es
  else do
    match ← report (Report.ofText (impliedTypes es)) with
    | [] => pure .any
    | types => do return .unionOf (← each (single sub es) types)

/-- The type of a schema that refers to another or lists values: no schema nested in it matters. -/
def listed? (scope : Scope) (es : Entries) : Option (Lowering TypeExpr) :=
  match es.get "$ref" with
  | .str ref => some (lowerReference scope ref)
  | _ =>
    match es.find? "const" with
    | some value => some (lowerLiteral value)
    | none =>
      match es.get "enum" with
      | .list (first :: rest) => some do return .unionOf (← eachOf lowerLiteral (first :: rest))
      | _ => none

/-- The type of a schema, apart from `nullable`. -/
def entries (scope : Scope) (es : Entries) : Mapping TypeExpr :=
  match listed? scope es with
  | some type => report type
  | none => unlisted sub es

/-- The type of a schema, where `sub` gives the types of those nested in it. -/
def step (scope : Scope) : Value → Mapping TypeExpr
  | .bool true => pure .any
  | .bool false => pure .never
  | .map es => descend scope.maxDepth fun
    | true => do
      let type ← entries sub scope es
      return if (Entries.get "nullable" es).isTrue then .unionOf [type, .null] else type
    | false => do
      report (warn (.depthExceeded scope.maxDepth))
      return fallback scope es
  | _ => pure .any

end Parts

/-- The type of a schema with `levels` of nesting left. Below the last of them no schema is looked
into. -/
def within (scope : Scope) : (levels : Nat) → Value → Mapping TypeExpr
  | 0 => step (fun _ => pure .any) scope
  | levels + 1 => step (within scope levels) scope

/-- The type of a schema. -/
def map (scope : Scope) (schema : Value) : Mapping TypeExpr := do
  within scope (scope.maxDepth - (← context).depth).toNat schema

/-! ## Declarations -/

/-- The properties of an interface. -/
def properties (scope : Scope) (required : List Key) (properties : Entries) :
    Mapping (List Property) :=
  each (fun (key, schema) => do
    let name ← report (Report.ofText key.shown)
    let type ← map scope schema
    return {
      name
      type
      isOptional := !isRequired required key
      isReadonly := isReadOnly schema
      documentation := schema.map?.bind documentation : Property }) properties

/-- The type that an index signature has beside properties: it takes their values too. -/
def indexType (properties : List Property) (value : TypeExpr) : TypeExpr :=
  if properties.isEmpty then value
  else
    let missing := if properties.any (·.isOptional) then [TypeExpr.undefined] else []
    .unionOf (value :: properties.map (·.type) ++ missing)

/-- The index signature of an interface. -/
def index (scope : Scope) (properties : List Property) : Value → Mapping (Option IndexSignature)
  | .bool true => pure (some ⟨"string", .any⟩)
  | .map [] => pure (some ⟨"string", .any⟩)
  | .map es => do return some ⟨"string", indexType properties (← map scope (.map es))⟩
  | _ => pure none

/-- The interface of an object schema. -/
def interface (scope : Scope) (typeName : String) (es : Entries) : Mapping Interface := do
  let required ← report (Report.ofOption (requiredKeys? (es.get "required")))
  let entries ← report (Report.ofOption (propertyEntries? (es.get "properties")))
  let properties ← properties scope required entries
  let index ← index scope properties (es.get "additionalProperties")
  return { name := typeName, properties, index, documentation := documentation es }

/-- The declaration of a schema that is no reference. -/
def unreferred (scope : Scope) (typeName : String) (es : Entries) : Mapping Declaration :=
  match enumValues? es with
  | some values => do
    let variants ← report (variantsAfter [] values)
    return .enumeration { name := typeName, variants, documentation := documentation es }
  | none => do
    if ← report (Report.ofText (isInterface es)) then
      return .interface (← interface scope typeName es)
    else
      let type ← map scope (.map es)
      return .typeAlias { name := typeName, type, documentation := documentation es }

/-- The declaration of a reference, where `follow` goes on with the component that it names. -/
def reference (scope : Scope) (typeName : String)
    (follow : Option (Option String → Value → Mapping Declaration)) (firstHop : Option String)
    (ref : String) : Mapping Declaration := do
  let hop := firstHop.getD (Name.typeName (displayName ref))
  match componentOf? ref with
  | none => report (declareUnresolved typeName ref)
  | some target =>
    if (← context).isResolving target then
      report (warn (.circularReference typeName hop))
      return .typeAlias (circularAlias typeName hop)
    else
      match follow, component? scope.components target with
      | some next, some schema => resolving target (next (some hop) (.map schema))
      | _, _ => report (declareUnresolved typeName ref)

/-- The declaration of a schema, where `follow` goes on with a component that it refers to. -/
def declaration (scope : Scope) (typeName : String)
    (follow : Option (Option String → Value → Mapping Declaration)) (firstHop : Option String) :
    Value → Mapping Declaration
  | .map es => do
    report (noteDiscriminator typeName es)
    match Entries.find? "$ref" es with
    | none => unreferred scope typeName es
    | some value =>
      let ref ← report (Report.ofText value.shown)
      reference scope typeName follow firstHop ref
  | schema => do
    let type ← map scope schema
    return .typeAlias { name := typeName, type }

/-- The declaration of a schema, following at most `links` references. -/
def following (scope : Scope) (typeName : String) :
    (links : Nat) → (firstHop : Option String) → Value → Mapping Declaration
  | 0 => declaration scope typeName none
  | links + 1 => declaration scope typeName (some (following scope typeName links))

/-- The declaration of the schema `name`. A chain of references comes back to a name that is being
resolved after as many links as there are components at most. -/
def declare (scope : Scope) (name : String) (schema : Value) : Mapping Declaration :=
  resolving name (following scope (Name.typeName name) scope.components.length none schema)

end ClientGen.Schema.Mapper
