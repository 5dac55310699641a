import ClientGen.Source.Comment
import ClientGen.Source.Literal
import ClientGen.Text.Case
import ClientGen.Value.Basic

/-!
# Bodies of methods

An operation has two methods. The raw one sends the request: it collects query and header
parameters, awaits the response and wraps it. The convenience one calls the raw one with the same
arguments and unwraps the result. The statements of a body are lists of lines.
-/

namespace ClientGen.Client

/-- A parameter as the body of a method uses it. -/
structure RequestParameter where
  name : String
  wireName : String
  typeText : String := "any"
  isOptional : Bool := false
deriving DecidableEq, Repr

/-- How the response of an operation is wrapped. -/
inductive ResponseKind where
  | json
  | void
deriving DecidableEq, Repr

/-- The word for a kind of response. -/
def ResponseKind.label : ResponseKind → String
  | json => "json"
  | void => "void"

/-- What the body of a method is made from. -/
structure Request where
  methodName : String
  /-- The verb. -/
  method : String
  path : String
  pathParameters : List RequestParameter := []
  queryParameters : List RequestParameter := []
  headerParameters : List RequestParameter := []
  bodyParameter : Option RequestParameter := none
  returnType : String := "any"
  responseKind : ResponseKind := .json
  hasAuth : Bool := false
  /-- Whether some response stands for failure. -/
  hasErrorHandling : Bool := false
  summary : Value := .null
  description : Value := .null
  isDeprecated : Bool := false
deriving Repr

/-- The parameter that ends every parameter list. -/
def overridesName : String := "initOverrides"

namespace Request

/-- The name of the raw method. -/
def rawName (r : Request) : String := r.methodName ++ "Raw"

/-- The arguments that the convenience method hands on. -/
def callArguments (r : Request) : List String :=
  (r.pathParameters ++ r.queryParameters ++ r.headerParameters
    ++ r.bodyParameter.toList).map (·.name) ++ [overridesName]

/-! ## Statements -/

/-- Lines that collect the query parameters. -/
def queryLines (r : Request) : List String :=
  "const queryParameters: Record<string, any> = \x7b\x7d;"
    :: r.queryParameters.flatMap fun p => [
      "if (" ++ p.name ++ " !== undefined) \x7b",
      "  queryParameters[" ++ Source.singleQuoted p.wireName ++ "] = " ++ p.name ++ ";",
      "\x7d"]

/-- Lines that ask for a token. -/
def authLines : List String := [
  "if (this.configuration && this.configuration.accessToken) \x7b",
  "  const token = await this.configuration.accessToken();",
  "  if (token) \x7b",
  "    headerParameters['Authorization'] = \x60Bearer $\x7btoken\x7d\x60;",
  "  \x7d",
  "\x7d"]

/-- Lines that collect the header parameters. -/
def headerLines (r : Request) (jsonBody : Bool) : List String :=
  ["const headerParameters: Record<string, string> = \x7b\x7d;"]
    ++ (if jsonBody then ["headerParameters['Content-Type'] = 'application/json';"] else [])
    ++ (r.headerParameters.flatMap fun p => [
      "if (" ++ p.name ++ " !== undefined && " ++ p.name ++ " !== null) \x7b",
      "  headerParameters[" ++ Source.singleQuoted p.wireName ++ "] = String(" ++ p.name ++ ");",
      "\x7d"])
    ++ if r.hasAuth then authLines else []

/-- The path of the request as a template literal. -/
def pathText (r : Request) : String :=
  Source.pathTemplate r.path (r.pathParameters.map fun p => (p.wireName, p.name))

/-- Lines that send the request. -/
def callLines (r : Request) (withBody : Bool) : List String :=
  ["const response = await this.request(",
    "  \x7b",
    "    path: " ++ r.pathText ++ ",",
    "    method: " ++ Source.singleQuoted r.method ++ ",",
    "    headers: headerParameters,",
    "    query: queryParameters,"]
    ++ (match withBody, r.bodyParameter with
      | true, some p => ["    body: JSON.stringify(" ++ p.name ++ "),"]
      | _, _ => [])
    ++ ["  \x7d,", "  initOverrides,", ");"]

/-- The line that wraps the response. -/
def returnLine : ResponseKind → String
  | .void => "return new VoidApiResponse(response);"
  | .json => "return new JSONApiResponse(response);"

end Request

/-! ## Bodies -/

/-- The name of a template without the parts that mean nothing: empty ones and single dots. -/
def plainTemplate (name : String) : String :=
  "/".intercalate ((Text.splitAt '/' name).filter fun part => part != "" && part != ".")

/-- The bodies that a method may have. -/
inductive BodyTemplate where
  | get
  | send
  | delete
  | other
  | convenience
  | baseConstructor
  /-- The blocks that other bodies share; it has none of its own. -/
  | shared
deriving DecidableEq, Repr

namespace BodyTemplate

/-- The name of a template. -/
def label : BodyTemplate → String
  | get => "api_method_get"
  | send => "api_method_post_put"
  | delete => "api_method_delete"
  | other => "default"
  | convenience => "api_method_convenience"
  | baseConstructor => "constructor_base_api"
  | shared => "_request_parts"

/-- All templates. -/
def all : List BodyTemplate :=
  [get, send, delete, other, convenience, baseConstructor, shared]

/-- The template of a name. -/
def ofName? (name : String) : Option BodyTemplate :=
  all.find? fun t => t.label ++ ".j2" == plainTemplate (name ++ ".j2")

/-- The template of the raw method for a verb, which may be written in small letters. -/
def ofVerb (verb : String) : BodyTemplate :=
  let verb := Text.upper verb
  if verb == "GET" then get
  else if verb == "POST" || verb == "PUT" || verb == "PATCH" then send
  else if verb == "DELETE" then delete
  else other

/-- Whether a body is made from a request. -/
def needsRequest : BodyTemplate → Bool
  | baseConstructor => false
  | shared => false
  | _ => true

/-- The body of a method that calls another one with arguments. -/
def callText (rawName : String) (arguments : List String) : String :=
  "return (await this." ++ rawName ++ "(" ++ ", ".intercalate arguments ++ ")).value();"

/-- The blocks of lines of a body. `announces` tells whether the headers announce a JSON body. -/
def blocksWith (announces : Bool) (r : Request) : BodyTemplate → List (List String)
  | get => [
      r.queryLines, r.headerLines false, r.callLines false,
      [Request.returnLine r.responseKind]]
  | delete => [
      r.queryLines, r.headerLines false, r.callLines false, [Request.returnLine .void]]
  | send | other => [
      r.queryLines, r.headerLines announces, r.callLines true,
      [Request.returnLine r.responseKind]]
  | convenience => [[callText r.rawName r.callArguments]]
  | baseConstructor => [["super(configuration);"]]
  | shared => []

/-- The text of a body; an empty line stands between blocks. -/
def textWith (t : BodyTemplate) (announces : Bool) (r : Request) : String :=
  "\n\n".intercalate ((blocksWith announces r t).map Text.unlines)

/-- The text of a body, whose headers announce a JSON body where there is a parameter for one. -/
def text (t : BodyTemplate) (r : Request) : String := t.textWith r.bodyParameter.isSome r

end BodyTemplate

end ClientGen.Client
