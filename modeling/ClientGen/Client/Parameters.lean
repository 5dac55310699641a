import ClientGen.Document.Basic
import ClientGen.Schema.Lowering
import ClientGen.Schema.Mapper
import ClientGen.Source.Literal

/-!
# The parameters of an operation

Parameters are sorted by where they travel: in the path, in the query, in the headers and in the
body. A path parameter that the path has no place for travels in the query, and one that travels in
no other place is left out with a warning. Every parameter gets an identifier of its own. They are
worked out without a context (`inputsOf`), and by the extractor (`Extractor.extract`), which has the
mapper give them their types in a context that is changed on the way.
-/

namespace ClientGen.Client

open Schema (Lowering Scope)

/-- A parameter with its type and identifier. -/
structure MethodInput where
  wireName : String
  identifier : String
  type : TypeExpr
  isRequired : Bool
  description : Value
  default : Value

/-- The parameters of an operation by where they travel. -/
structure Inputs where
  path : List MethodInput := []
  query : List MethodInput := []
  header : List MethodInput := []
  body : Option MethodInput := none

/-- All parameters in the order of a signature. -/
def Inputs.inOrder (i : Inputs) : List MethodInput :=
  i.path ++ i.query ++ i.header ++ i.body.toList

/-- Where a parameter travels. -/
inductive Place where
  | path
  | query
  | header
deriving DecidableEq, Repr

/-- Where a parameter of an operation with the given placeholders travels, if anywhere. -/
def placeOf? (placeholders : List String) (p : Parameter) : Option Place :=
  if p.location = .str "path" then
    if placeholders.contains p.name then some .path else some .query
  else if p.location = .str "query" then some .query
  else if p.location = .str "header" then some .header
  else none

/-- The default of a parameter, which its schema gives. -/
def defaultOf (schema : Value) : Lowering Value :=
  if !schema.truthy then pure .null
  else do return (← Report.ofOption schema.map?).get "default"

/-- The type of a parameter; one without a schema is text. -/
def typeOfParameter (scope : Scope) (p : Parameter) : Lowering TypeExpr :=
  match p.schema with
  | .null => pure .string
  | schema => Schema.lower scope schema

/-- Sorts parameters by where they travel. `used` are the identifiers given so far; they are
returned with those given here. -/
def sortParameters (scope : Scope) (o : Operation) (placeholders : List String) :
    (used : List String) → List Parameter → Lowering (List (Place × MethodInput) × List String)
  | used, [] => pure ([], used)
  | used, p :: rest => do
    let type ← typeOfParameter scope p
    let default ← defaultOf p.schema
    match placeOf? placeholders p with
    | none =>
      Schema.warn
        (.droppedParameter (← Report.ofText p.location.shown) p.name o.method o.path)
      sortParameters scope o placeholders used rest
    | some place =>
      let identifier := Name.distinctFrom used (Name.valueName p.name)
      let input : MethodInput := {
        wireName := p.name
        identifier
        type
        isRequired := p.isRequired || place = .path
        description := p.description
        default }
      let (others, used) ← sortParameters scope o placeholders (identifier :: used) rest
      return ((place, input) :: others, used)

/-- The name of the parameter that is the body. -/
def bodyName : String := "body"

/-- The parameter that is the body of an operation, if it has a JSON body with a schema. -/
def bodyInput (scope : Scope) (o : Operation) (used : List String) :
    Lowering (Option MethodInput) :=
  match o.body with
  | none => pure none
  | some body =>
    match body.content.json? with
    | none => pure none
    | some .null => pure none
    | some schema => do
      let type ← Schema.lower scope schema
      return some {
        wireName := bodyName
        identifier := Name.distinctFrom used (Name.valueName bodyName)
        type
        isRequired := body.isRequired
        description := body.description
        default := .null }

/-- The parameters of an operation. -/
def inputsOf (scope : Scope) (o : Operation) : Lowering Inputs := do
  let placeholders := Source.placeholderNames o.path
  let (sorted, used) ← sortParameters scope o placeholders [] o.parameters
  let inPlace (place : Place) := (sorted.filter (·.1 = place)).map (·.2)
  let body ← bodyInput scope o used
  return { path := inPlace .path, query := inPlace .query, header := inPlace .header, body }

end ClientGen.Client

namespace ClientGen.Client.Extractor

open Schema (Lowering Mapper.map Mapping Scope)
open Schema.Mapping (report)

/-! ## The extractor -/

/-- The type of a parameter; one without a schema is text. -/
def typeOf (scope : Scope) (p : Parameter) : Mapping TypeExpr :=
  match p.schema with
  | .null => pure .string
  | schema => Mapper.map scope schema

/-- Gives the warning that a parameter is left out. -/
def drop (o : Operation) (p : Parameter) : Lowering Unit := do
  Schema.warn (.droppedParameter (← Report.ofText p.location.shown) p.name o.method o.path)

/-- A parameter before it gets an identifier of its own. -/
def draft (p : Parameter) (place : Place) (type : TypeExpr) (default : Value) : MethodInput where
  wireName := p.name
  identifier := Name.valueName p.name
  type
  isRequired := p.isRequired || place = .path
  description := p.description
  default

/-- Sorts parameters by where they travel. `used` are the identifiers given so far; they are
returned with those given here. -/
def sort (scope : Scope) (o : Operation) (placeholders : List String) :
    (used : List String) → List Parameter → Mapping (List (Place × MethodInput) × List String)
  | used, [] => pure ([], used)
  | used, p :: rest => do
    let type ← typeOf scope p
    let default ← report (defaultOf p.schema)
    match placeOf? placeholders p with
    | none =>
      report (drop o p)
      sort scope o placeholders used rest
    | some place =>
      let input := draft p place type default
      let identifier := Name.distinctFrom used input.identifier
      let (others, used) ← sort scope o placeholders (identifier :: used) rest
      return ((place, { input with identifier }) :: others, used)

/-- The parameter that is the body of an operation, if it has a JSON body with a schema. -/
def body (scope : Scope) (o : Operation) (used : List String) : Mapping (Option MethodInput) :=
  match o.body with
  | none => pure none
  | some body =>
    match body.content.json? with
    | none => pure none
    | some .null => pure none
    | some schema => do
      let type ← Mapper.map scope schema
      return some {
        wireName := bodyName
        identifier := Name.distinctFrom used (Name.valueName bodyName)
        type
        isRequired := body.isRequired
        description := body.description
        default := .null }

/-- Inputs by where they travel. -/
def byPlace (sorted : List (Place × MethodInput)) (body : Option MethodInput) : Inputs :=
  let inPlace (place : Place) := (sorted.filter (·.1 = place)).map (·.2)
  { path := inPlace .path, query := inPlace .query, header := inPlace .header, body }

/-- The parameters of an operation. -/
def extract (scope : Scope) (o : Operation) : Mapping Inputs := do
  let (sorted, used) ← sort scope o (Source.placeholderNames o.path) [] o.parameters
  let body ← body scope o used
  return byPlace sorted body

end ClientGen.Client.Extractor
