import ClientGen.Schema.Basic
import ClientGen.Text.Case
import ClientGen.Value.Display
import ClientGen.Value.Shared

/-!
# API documents

What a document says about an API: its paths with their operations, and the component schemas.
Schemas are kept as values with the places where they stand. The descriptive fields are values as
well, since a document may fill them with anything.
-/

namespace ClientGen

/-- Title, version and description of an API. -/
structure Info where
  title : String
  version : String
  description : Value

/-- A server that offers the API. -/
structure Server where
  url : String
  description : Value

/-- A parameter of an operation. -/
structure Parameter where
  name : String
  location : Key
  isRequired : Bool
  description : Value
  /-- The schema, which is `null` where there is none. -/
  spot : Spot
  isDeprecated : Bool

/-- The schema of a parameter. -/
def Parameter.schema (p : Parameter) : Value := p.spot.value

/-- The schemas of the media types of a body; a schema is `null` where there is none. -/
abbrev Content := List (String × Spot)

/-- The body of a request. -/
structure RequestBody where
  content : Content
  isRequired : Bool
  description : Value

/-- A response to a request. -/
structure Response where
  status : String
  description : Value
  content : Content

/-- An operation on a path. -/
structure Operation where
  /-- The verb in capitals. -/
  method : String
  path : String
  operationId : Value
  tags : List String
  summary : Value
  description : Value
  parameters : List Parameter
  body : Option RequestBody
  responses : List (String × Response)
  isDeprecated : Bool
  /-- The security requirements of the operation, where it has its own. -/
  security : Option (List Value)

/-- A path with its operations, each under its verb in small letters. -/
structure PathItem where
  path : String
  operations : List (String × Operation)

/-- An API document. -/
structure Document where
  openapi : String
  info : Info
  servers : List Server
  paths : List (String × PathItem)
  /-- The component schemas. -/
  components : List (String × Spot)
  securitySchemes : Entries
  security : List Value
  /-- The places of schemas, and of what stands in them, that are places of one thing. -/
  links : Value.Links := []

/-- The component schemas of a document. -/
def Document.schemas (d : Document) : Schema.Components :=
  d.components.map fun c => (c.1, c.2.value)

/-- The media type of JSON. -/
def jsonMediaType : String := "application/json"

/-- Whether a media type, apart from its parameters, is a JSON format. -/
def isJsonFormat (mediaType : String) : Bool :=
  let base := ((Text.splitAt ';' mediaType).head?).getD ""
  Text.endsWith "+json" (Text.trim base)

/-- The schema of the JSON media type: the plain one, or else the first of a JSON format. -/
def Content.json? (content : Content) : Option Value :=
  match content.lookup jsonMediaType with
  | some schema => some schema.value
  | none => (content.find? fun m => isJsonFormat m.1).map (·.2.value)

/-- Whether a status stands for success: any of three characters that begins with a two. -/
def isSuccessStatus (status : String) : Bool :=
  Text.upper status == "2XX" || (Text.length status == 3 && Text.startsWith "2" status)

/-- Whether a response stands for success. -/
def Response.isSuccess (r : Response) : Bool := isSuccessStatus r.status

namespace Document

/-- All operations in document order. -/
def operations (d : Document) : List Operation :=
  d.paths.flatMap fun p => p.2.operations.map (·.2)

/-- Whether there is a schema. -/
def isSchema : Value → Bool
  | .null => false
  | _ => true

/-- The schemas of an operation: those of its parameters, its body and its responses. -/
def operationRoots (o : Operation) : List Spot :=
  let content (c : Content) := c.map (·.2)
  (o.parameters.map (·.spot) ++ (o.body.map fun b => content b.content).getD []
    ++ o.responses.flatMap fun r => content r.2.content).filter fun x => isSchema x.value

/-- Every schema that stands at the top in a document: the components, and then the schemas of each
operation. -/
def rootSpots (d : Document) : List Spot :=
  d.components.map (·.2) ++ d.operations.flatMap operationRoots

/-- Every schema that stands at the top in a document, as a value. -/
def schemaRoots (d : Document) : List Value := d.rootSpots.map (·.value)

/-- Changes the schemas of a body's content. -/
def mapContent (f : Spot → Value) (c : Content) : Content := c.map fun m => (m.1, m.2.map f)

/-- Changes the schemas of an operation. -/
def mapOperation (f : Spot → Value) (o : Operation) : Operation :=
  { o with
    parameters := o.parameters.map fun p => { p with spot := p.spot.map f }
    body := o.body.map fun b => { b with content := mapContent f b.content }
    responses := o.responses.map fun r =>
      (r.1, { r.2 with content := mapContent f r.2.content }) }

/-- Changes every schema that stands at the top in a document. -/
def mapRoots (f : Spot → Value) (d : Document) : Document :=
  { d with
    components := d.components.map fun c => (c.1, c.2.map f)
    paths := d.paths.map fun p =>
      (p.1, { p.2 with operations := p.2.operations.map fun o => (o.1, mapOperation f o.2) }) }

end Document

end ClientGen
