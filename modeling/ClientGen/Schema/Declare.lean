import ClientGen.Decl.Basic
import ClientGen.Schema.Lowering

/-!
# The declaration of a named schema

A named schema becomes an enumeration if it lists values, an interface if it describes an object of
its own, and an alias otherwise. A schema that is only a reference is declared like the schema at
the end of the chain of references. The chain stops where it comes back to a name that is being
resolved already, so it has at most as many links as there are components.
-/

namespace ClientGen.Schema

/-- The names that are being resolved, oldest first, each once. -/
abbrev Stack := List String

/-- The stack with a name on top, unless it is there already. -/
def pushName (stack : Stack) (name : String) : Stack :=
  if stack.contains name then stack else stack ++ [name]

/-! ## Enumerations -/

/-- The members for values, with names that differ from those `used` and from one another. -/
def variantsAfter (used : List String) : List Value → Lowering (List Variant)
  | [] => pure []
  | value :: rest => do
    let base ← Report.ofText (Name.memberText value)
    let name := Name.distinctFrom used (Name.memberName base)
    let text ← Report.ofText (enumValueText value)
    let others ← variantsAfter (name :: used) rest
    return ⟨name, some text⟩ :: others

/-- Values other than `null`. -/
def withoutNull (values : List Value) : List Value :=
  values.filter fun
    | .null => false
    | _ => true

/-- The values that make a schema an enumeration. -/
def enumValues? (es : Entries) : Option (List Value) :=
  match es.get "enum" with
  | .list values => if (withoutNull values).isEmpty then none else some (withoutNull values)
  | _ => none

/-! ## Interfaces -/

/-- Whether a schema becomes an interface. -/
def isInterface (es : Entries) : Except Textless Bool :=
  if isComposed es then .ok false
  else do
    return (← isObject es) && ((es.get "properties").truthy || es.has "additionalProperties")

/-- The properties of an interface. -/
def interfaceProperties (scope : Scope) (required : List Key) (properties : Entries) :
    Lowering (List Property) :=
  eachOf (fun (key, schema) => do
    let name ← Report.ofText key.shown
    let type ← lower scope schema
    return {
      name
      type
      isOptional := !isRequired required key
      isReadonly := isReadOnly schema
      documentation := schema.map?.bind documentation : Property }) properties

/-- The index signature of an interface. Its type takes the values of all properties too. -/
def interfaceIndex (scope : Scope) (properties : List Property) (additional : Value) :
    Lowering (Option IndexSignature) :=
  match additional with
  | .bool true => pure (some ⟨"string", .any⟩)
  | .map [] => pure (some ⟨"string", .any⟩)
  | .map es => do
    let value ← lower scope (.map es)
    if properties.isEmpty then return some ⟨"string", value⟩
    let missing := if properties.any (·.isOptional) then [TypeExpr.undefined] else []
    return some ⟨"string", .unionOf (value :: properties.map (·.type) ++ missing)⟩
  | _ => pure none

/-- The interface of an object schema. -/
def declareInterface (scope : Scope) (typeName : String) (es : Entries) :
    Lowering Interface := do
  let required ← Report.ofOption (requiredKeys? (es.get "required"))
  let entries ← Report.ofOption (propertyEntries? (es.get "properties"))
  let properties ← interfaceProperties scope required entries
  let index ← interfaceIndex scope properties (es.get "additionalProperties")
  return { name := typeName, properties, index, documentation := documentation es }

/-! ## Declarations -/

/-- The note of the property that tells variants apart. -/
def noteDiscriminator (typeName : String) (es : Entries) : Lowering Unit :=
  match ((es.get "discriminator").field "propertyName").present? with
  | some property => do Report.note (.discriminator typeName (← Report.ofText property.shown))
  | none => pure ()

/-- The declaration of a schema that is no reference. -/
def declareOwn (scope : Scope) (typeName : String) (es : Entries) : Lowering Declaration :=
  match enumValues? es with
  | some values => do
    let variants ← variantsAfter [] values
    return .enumeration { name := typeName, variants, documentation := documentation es }
  | none => do
    if ← Report.ofText (isInterface es) then
      return .interface (← declareInterface scope typeName es)
    else
      let type ← lower scope (.map es)
      return .typeAlias { name := typeName, type, documentation := documentation es }

/-- The alias for a reference that comes back to a name being resolved. `closing` is the type that
the chain began with. -/
def circularAlias (typeName closing : String) : Alias where
  name := typeName
  type := if closing = typeName then .unknown else .named closing
  documentation := some ("Circular reference to " ++ closing)

/-- The alias for a reference that names no component. -/
def unresolvedAlias (typeName ref : String) : Alias where
  name := typeName
  type := .named (Name.typeName (displayName ref))
  documentation := some ("Unresolved reference to " ++ displayName ref)

/-- The declaration of a type whose reference names no component. -/
def declareUnresolved (typeName ref : String) : Lowering Declaration := do
  warn (.unresolvedDeclaration ref typeName)
  return .typeAlias (unresolvedAlias typeName ref)

/-- The declaration of a schema. `firstHop` is the type of the first reference that was followed;
`follow` goes on with the component that a reference names, as long as references are followed. -/
def declareStep (scope : Scope) (typeName : String)
    (follow : Option (Stack → Option String → Value → Lowering Declaration)) (stack : Stack)
    (firstHop : Option String) : Value → Lowering Declaration
  | .map es => do
    noteDiscriminator typeName es
    match Entries.find? "$ref" es with
    | none => declareOwn scope typeName es
    | some value =>
      let ref ← Report.ofText value.shown
      let hop := firstHop.getD (Name.typeName (displayName ref))
      match componentOf? ref with
      | none => declareUnresolved typeName ref
      | some target =>
        if stack.contains target then
          warn (.circularReference typeName hop)
          return .typeAlias (circularAlias typeName hop)
        else
          match follow, component? scope.components target with
          | some next, some schema => next (pushName stack target) (some hop) (.map schema)
          | _, _ => declareUnresolved typeName ref
  | schema => do
    let type ← lower scope schema
    return .typeAlias { name := typeName, type }

/-- The declaration of a schema, following at most `links` references. -/
def declareWithin (scope : Scope) (typeName : String) :
    (links : Nat) → Stack → (firstHop : Option String) → Value → Lowering Declaration
  | 0 => declareStep scope typeName none
  | links + 1 => declareStep scope typeName (some (declareWithin scope typeName links))

/-- The declaration of the schema `name`, while the names of `stack` are being resolved. -/
def declare (scope : Scope) (stack : Stack) (name : String) (schema : Value) :
    Lowering Declaration :=
  declareWithin scope (Name.typeName name) scope.components.length (pushName stack name) none
    schema

/-! ## Notes -/

/-- The warnings among notes. -/
def warningsOf (notes : List Note) : List Warning :=
  notes.filterMap fun
    | .warning w => some w
    | .discriminator _ _ => none

/-- A lowering with its warnings only. -/
def warned {α : Type} (r : Lowering α) : Report Warning α := ⟨warningsOf r.notes, r.result⟩

/-- The discriminating properties after notes, by type. -/
def discriminatorsAfter (known : List (String × String)) (notes : List Note) :
    List (String × String) :=
  notes.foldl (fun known note =>
    match note with
    | .discriminator typeName property => setPair typeName property known
    | .warning _ => known) known

end ClientGen.Schema
