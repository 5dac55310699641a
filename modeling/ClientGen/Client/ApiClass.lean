import ClientGen.Client.Class
import ClientGen.Client.Parameters

/-!
# Classes for operations

Every tag of a document becomes a class with two methods for each operation that carries the tag.
Operations without tags go to the class of a default tag. A method name that is taken gets a
number, with a warning.
-/

namespace ClientGen.Client

open Schema (Lowering Scope)

/-! ## Names -/

/-- The tag of operations that have none. -/
def defaultTag : String := "default"

/-- The name of the class for a tag. -/
def className (tag : String) : String := Name.typeName tag ++ "Api"

/-- The name that a path and a verb give to a method. -/
def nameFromPath (method path : String) : String :=
  let segments := (Text.splitAt '/' path).filter fun s => !s.isEmpty && !Text.startsWith "\x7b" s
  Name.camel (Text.lower method ++ String.join (segments.map Name.pascal))

/-- The name of the method for an operation: its identifier, or else its verb and path. -/
def methodName? (operationId : Value) (method path : String) : Option String := do
  let identifier ← if operationId.truthy then operationId.str? else some ""
  let name := Name.camel identifier
  return Name.guardDigit (if name.isEmpty then nameFromPath method path else name)

/-- Whether a name and its raw variant are free. -/
def isFreeMethodName (used : List String) (name : String) : Bool :=
  !used.contains name && !used.contains (name ++ "Raw")

/-- The name for a method, with a number if it is taken. -/
def distinctMethodName (used : List String) (name : String) : String :=
  if isFreeMethodName used name then name
  else Name.firstNumbered (isFreeMethodName used) name (2 * used.length) 2

/-! ## Responses -/

/-- Whether a status comes no later than another: those in digits first, and each kind in the
order of texts. -/
def statusLE (a b : String) : Bool :=
  match isNumeric a, isNumeric b with
  | true, false => true
  | false, true => false
  | _, _ => Text.le a b
where
  /-- Whether a status is in digits. -/
  isNumeric (s : String) : Bool := !s.isEmpty && s.toList.all Text.isDigit

/-- The response that stands for success. -/
def successResponse (responses : List (String × Response)) : Option Response :=
  (((responses.map (·.2)).filter (·.isSuccess)).mergeSort fun a b =>
    statusLE a.status b.status).head?

/-- Whether a response stands for failure. -/
def isErrorStatus (status : String) : Bool :=
  Text.upper status == "DEFAULT" || Text.startsWith "4" status || Text.startsWith "5" status

/-! ## Methods -/

/-- What is known of the method for an operation. -/
structure MethodPlan where
  operation : Operation
  inputs : Inputs
  request : Request
  valueType : TypeExpr

/-- A promise of a value. -/
def promiseOf (t : TypeExpr) : TypeExpr := .ref "Promise" [t]

/-- The type of the parameter that ends every parameter list. -/
def overridesType : TypeExpr := .union [.named "RequestInit", .named "InitOverrideFunction"]

/-- A parameter as the body of a method uses it. -/
def requestParameter (width : Int) (i : MethodInput) : RequestParameter where
  name := i.identifier
  wireName := i.wireName
  typeText := i.type.text width
  isOptional := !i.isRequired

/-- How the response of an operation is wrapped, and the type of its value. -/
def responseOf (scope : Scope) (o : Operation) : Lowering (ResponseKind × TypeExpr) :=
  match successResponse o.responses with
  | none => pure (.json, .any)
  | some response =>
    match Text.upper o.method == "DELETE", response.content.json? with
    | true, _ => pure (.void, .void)
    | false, none => pure (.void, .void)
    | false, some .null => pure (.json, .any)
    | false, some schema => do return (.json, ← Schema.lower scope schema)

/-- Plans the method for an operation. -/
def planMethod (scope : Scope) (width : Int) (security : List Value) (name : String)
    (o : Operation) : Lowering MethodPlan := do
  let inputs ← inputsOf scope o
  let (kind, valueType) ← responseOf scope o
  let parameters (is : List MethodInput) := is.map (requestParameter width)
  return {
    operation := o
    inputs
    valueType
    request := {
      methodName := name
      method := Text.upper o.method
      path := o.path
      pathParameters := parameters inputs.path
      queryParameters := parameters inputs.query
      headerParameters := parameters inputs.header
      bodyParameter := inputs.body.map (requestParameter width)
      returnType := valueType.text width
      responseKind := kind
      hasAuth := (o.security.getD security).any Value.truthy
      hasErrorHandling := o.responses.any fun r => isErrorStatus r.1
      summary := o.summary
      description := o.description
      isDeprecated := o.isDeprecated } }

/-- Whether a byte is that of a blank character. -/
def isBlankByte (b : UInt8) : Bool := b = 32 || (9 ≤ b && b ≤ 13)

/-- A descriptive field as a line of documentation. It has to be text, or blank bytes. -/
def documentationLine (v : Value) : Lowering (List String) :=
  match v with
  | .str s => pure (if Text.allBlank s then [] else [Text.trim s])
  | .other (.bytes content) => if content.all isBlankByte then pure [] else Report.malformed
  | v => if v.truthy then Report.malformed else pure []

/-- The documentation of both methods for an operation. -/
def documentationOf (p : MethodPlan) : Lowering (Option String) := do
  let summary ← documentationLine p.operation.summary
  let description ← documentationLine p.operation.description
  let thrown :=
    if p.request.hasErrorHandling then
      ["@throws \x7bResponseError\x7d when the server answers with an error status"]
    else []
  let deprecated := if p.operation.isDeprecated then ["@deprecated"] else []
  let lines := summary ++ description ++ thrown ++ deprecated
  return if lines.isEmpty then none else some (Text.unlines lines)

/-- The parameters of both methods for an operation. -/
def methodParameters (inputs : Inputs) : List MethodParameter :=
  (inputs.inOrder.map fun i =>
    { name := i.identifier, type := i.type, isOptional := !i.isRequired : MethodParameter })
    ++ [{ name := overridesName, type := overridesType, isOptional := true }]

/-- The type that the raw method returns. -/
def rawResult (p : MethodPlan) : TypeExpr :=
  promiseOf (match p.request.responseKind with
    | .void => .named "VoidApiResponse"
    | .json => .ref "JSONApiResponse" [p.valueType])

/-- The type that the convenience method returns. -/
def convenienceResult (p : MethodPlan) : TypeExpr :=
  promiseOf (match p.request.responseKind with
    | .void => .void
    | .json => p.valueType)

/-- The raw method and the convenience method for an operation. -/
def methodPair (p : MethodPlan) (documentation : Option String) : List Method :=
  let parameters := methodParameters p.inputs
  [{ signature := {
      name := p.request.rawName, parameters, result := some (rawResult p), isAsync := true }
     documentation
     body := { request := some p.request } },
   { signature := {
      name := p.request.methodName, parameters, result := some (convenienceResult p),
      isAsync := true }
     documentation
     body := { template := some BodyTemplate.convenience.label, request := some p.request } }]

/-- The constructor that every class has. -/
def constructorMethod : Method where
  signature := {
    name := "constructor"
    parameters := [
      { name := "configuration", type := .named "Configuration", isOptional := true }] }
  body := { template := some BodyTemplate.baseConstructor.label }

/-- The names that the types of a method refer to. -/
def referencedNames (p : MethodPlan) : List String :=
  p.inputs.inOrder.flatMap (·.type.names) ++ p.valueType.names

/-! ## Classes -/

/-- The methods for operations. `used` are the method names given so far. -/
def methodsAfter (scope : Scope) (width : Int) (security : List Value) (owner : String) :
    (used : List String) → List Operation → Lowering (List (MethodPlan × List Method))
  | _, [] => pure []
  | used, o :: rest => do
    let wanted ← Report.ofOption (methodName? o.operationId o.method o.path)
    let name := distinctMethodName used wanted
    if name ≠ wanted then Schema.warn (.renamedMethod wanted owner name)
    let plan ← planMethod scope width security name o
    let documentation ← documentationOf plan
    let others ← methodsAfter scope width security owner (name :: (name ++ "Raw") :: used) rest
    return (plan, methodPair plan documentation) :: others

/-- The import of everything that a class needs at run time. -/
def runtimeImport : Import where
  module := "../runtime/runtime"
  specifiers :=
    (["BaseAPI", "JSONApiResponse", "VoidApiResponse", "ResponseError"].map fun name =>
      { name : ImportSpecifier })
    ++ ["Configuration", "InitOverrideFunction"].map fun name =>
      { name, isTypeOnly := true : ImportSpecifier }

/-- The imports of models that are referred to. `modules` gives the module of each model. -/
def modelImports (modules : List (String × String)) (referenced : List String) : List Import :=
  (sortedNames referenced).filterMap fun name =>
    (modules.lookup name).map fun module => {
      module := "../models/" ++ module, specifiers := [{ name }], isTypeOnly := true : Import }

/-- The class for a tag. -/
def classFor (scope : Scope) (width : Int) (security : List Value)
    (modules : List (String × String)) (tag : String) (operations : List Operation) :
    Lowering Class := do
  let name := className tag
  let methods ← methodsAfter scope width security name [] operations
  return {
    name
    base := some "BaseAPI"
    methods := constructorMethod :: methods.flatMap (·.2)
    imports := runtimeImport :: modelImports modules (methods.flatMap fun m => referencedNames m.1)
    documentation := some (name ++ " - operations tagged '" ++ tag ++ "'") }

/-- The tags of an operation. -/
def tagsOf (o : Operation) : List String := if o.tags.isEmpty then [defaultTag] else o.tags

/-- The tags of a document in ascending order, each with its operations in document order. -/
def operationsByTag (d : Document) : List (String × List Operation) :=
  (sortedNames (d.operations.flatMap tagsOf)).map fun tag =>
    (tag, d.operations.filter fun o => (tagsOf o).contains tag)

/-- The classes for tags, one after the other. -/
def classesFor (scope : Scope) (width : Int) (security : List Value)
    (modules : List (String × String)) : List (String × List Operation) → Lowering (List Class)
  | [] => pure []
  | (tag, operations) :: rest => do
    let c ← classFor scope width security modules tag operations
    return c :: (← classesFor scope width security modules rest)

/-- The classes of a document. -/
def apiClasses (d : Document) (scope : Scope) (width : Int) (modules : List (String × String)) :
    Lowering (List Class) :=
  classesFor scope width d.security modules (operationsByTag d)

end ClientGen.Client
