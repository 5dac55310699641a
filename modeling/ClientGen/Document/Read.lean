import ClientGen.Document.Basic
import ClientGen.Report.Basic

/-!
# Reading a document

The parts of a document are read in a fixed order, and the first fault ends the reading. Missing
parts count as empty, as do parts that hold nothing. References to parameters, bodies, responses
and path items are followed once; one that leads nowhere gives a warning and an empty mapping.
-/

namespace ClientGen.Document

/-- A reading step. -/
abbrev Reading := Report Warning

/-- Runs a step on each item in turn. -/
def readEach {α β : Type} (f : α → Reading β) : List α → Reading (List β)
  | [] => pure []
  | a :: rest => do
    let b ← f a
    let bs ← readEach f rest
    return b :: bs

/-- A spot, which has to be that of a mapping. -/
def mapping (x : Spot) : Reading Spot := if x.value.isMap then pure x else Report.malformed

/-- The text of a key. -/
def shownKey (k : Key) : Reading String := Report.ofText k.shown

/-- The text of a value. -/
def shown (v : Value) : Reading String := Report.ofText v.shown

/-- The text of a value, or the empty text where it counts as absent. -/
def shownOrEmpty (v : Value) : Reading String := if v.truthy then shown v else pure ""

/-- A mapping that may be missing. -/
def mappingOrNone (x : Spot) : Reading Spot :=
  if x.value.truthy then mapping x else pure ⟨.map [], []⟩

/-- What a value lists: the items of a list, the keys of a mapping, the characters of a text. -/
def listed (source : Shared) (x : Spot) : Reading (List Spot) := Report.ofOption (source.listed? x)

/-- What a value lists, if it is not missing. -/
def listedOrNone (source : Shared) (x : Spot) : Reading (List Spot) :=
  if x.value.truthy then listed source x else pure []

/-- Values by texts; of two that have one text the later one counts. -/
def byText {α : Type} (pairs : List (String × α)) : List (String × α) :=
  pairs.foldl (fun known p => Schema.setPair p.1 p.2 known) []

/-! ## References -/

/-- Characters with every escape of one kind, a tilde and a mark, undone. -/
def unescape (mark meaning : Char) : List Char → List Char
  | a :: b :: rest =>
    if a = '~' ∧ b = mark then meaning :: unescape mark meaning rest
    else a :: unescape mark meaning (b :: rest)
  | cs => cs

/-- A segment of a reference with its escapes undone. -/
def unescapeSegment (s : String) : String :=
  String.ofList (unescape '0' '~' (unescape '1' '/' s.toList))

/-- The spot that a path of names leads to. -/
def follow (source : Shared) : List String → Spot → Option Spot
  | [], x => some x
  | name :: rest, x => (source.find? x name).bind (follow source rest)

/-- The mapping that a reference names in a document. -/
def resolve (source : Shared) (ref : Value) : Reading Spot := do
  let text ← Report.ofOption ref.str?
  let segments := ((Text.splitAt '/' text).drop 1).map unescapeSegment
  match (follow source segments source.rootSpot).filter fun x => x.value.isMap with
  | some x => return x
  | none =>
    Report.note (.unresolvedReference text)
    return ⟨.map [], []⟩

/-- A mapping, or the mapping that its reference names. -/
def resolved (source : Shared) (x : Spot) : Reading Spot := do
  let x ← mapping x
  match source.find? x "$ref" with
  | some ref => resolve source ref.value
  | none => return x

/-! ## Parts of operations -/

/-- The schemas of media types. -/
def readContent (source : Shared) (x : Spot) : Reading Content := do
  let x ← mappingOrNone x
  let pairs ← readEach (fun (key, media) => do
    let name ← shownKey key
    let media ← mappingOrNone media
    return (name, source.written (source.get media "schema"))) (source.entries x)
  return byText pairs

/-- A parameter; one without a name is left out with a warning. -/
def readParameter (source : Shared) (x : Spot) : Reading (Option Parameter) := do
  let x ← resolved source x
  match (source.valueOf x "name").present? with
  | none =>
    Report.note (.namelessParameter (← shown (source.whole x)))
    return none
  | some value =>
    let name ← shown value
    let location ← match source.find? x "in" with
      | some place => Report.ofOption place.value.toKey?
      | none => pure (.str "query")
    let required := match source.find? x "required" with
      | some flag => flag.value.truthy
      | none => location == .str "path"
    return some {
      name
      location
      isRequired := required
      description := source.valueOf x "description"
      spot := source.written (source.get x "schema")
      isDeprecated := (source.get x "deprecated").value.truthy }

/-- Whether two parameters stand for the same thing: name and location agree. -/
def sameParameter (p q : Parameter) : Bool := p.name == q.name && p.location.same q.location

/-- Parameters with another one, which takes the place of one that stands for the same thing. -/
def setParameter (p : Parameter) : List Parameter → List Parameter
  | [] => [p]
  | q :: rest => if sameParameter q p then p :: rest else q :: setParameter p rest

/-- The parameters of a list of values, each once: in the order of first mention, and as given by
the last one. -/
def mergeParameters (ps : List Parameter) : List Parameter :=
  ps.foldl (fun merged p => setParameter p merged) []

/-- The body of a request. -/
def readBody (source : Shared) (x : Spot) : Reading RequestBody := do
  let x ← resolved source x
  let content ← readContent source (source.get x "content")
  return {
    content
    isRequired := (source.get x "required").value.truthy
    description := source.valueOf x "description" }

/-- A response. -/
def readResponse (source : Shared) (status : String) (x : Spot) : Reading Response := do
  let x ← resolved source x
  let content ← readContent source (source.get x "content")
  return {
    status
    description := ((source.find? x "description").map source.whole).getD (.str "")
    content }

/-- An operation, with the parameters of its path before its own. -/
def readOperation (source : Shared) (path method : String) (shared x : Spot) :
    Reading Operation := do
  let sharedItems ← listedOrNone source shared
  let ownItems ← listedOrNone source (source.get x "parameters")
  let parameters ← readEach (readParameter source) (sharedItems ++ ownItems)
  let request := source.get x "requestBody"
  let body ← if request.value.truthy then some <$> readBody source request else pure none
  let answers ← mappingOrNone (source.get x "responses")
  let responses ← readEach (fun (key, y) => do
    let status ← shownKey key
    return (status, ← readResponse source status y)) (source.entries answers)
  let listedTags ← listedOrNone source (source.get x "tags")
  let tags ← readEach (fun y => shown (source.whole y)) listedTags
  let security ← match source.get x "security" with
    | ⟨.null, _⟩ => pure none
    | y => some <$> listed source y
  return {
    method
    path
    operationId := source.valueOf x "operationId"
    tags
    summary := source.valueOf x "summary"
    description := source.valueOf x "description"
    parameters := mergeParameters (parameters.filterMap id)
    body
    responses := byText responses
    isDeprecated := (source.get x "deprecated").value.truthy
    security := security.map fun ys => ys.map source.whole }

/-! ## Paths -/

/-- The verbs that an operation may stand under. -/
def verbs : List String := ["get", "put", "post", "delete", "options", "head", "patch", "trace"]

/-- The word that a key gives for a verb. Bytes are no word; any other key has to be text. -/
def verbOf : Key → Reading (Option String)
  | .str s => pure (some s)
  | .other (.bytes _) => pure none
  | _ => Report.malformed

/-- The operations of a path item, each under its verb. -/
def readOperations (source : Shared) (path : String) (item : Spot) :
    Reading (List (String × Operation)) := do
  let shared := source.get item "parameters"
  let found ← readEach (fun (key, y) => do
    let method := (← verbOf key).getD ""
    let verb := Text.lower method
    if verbs.contains verb && y.value.isMap then
      return some (verb, ← readOperation source path (Text.upper method) shared y)
    else return none) (source.entries item)
  return (found.filterMap id).foldl (fun known o => Schema.setPair o.1 o.2 known) []

/-- A path with its operations. -/
def readPath (source : Shared) (key : Key) (x : Spot) : Reading PathItem := do
  if x.value.isMap then
    let item ← resolved source x
    let path ← shownKey key
    return { path, operations := ← readOperations source path item }
  else Report.fail (.input (some (← shownKey key)) .pathNotMapping)

/-- The paths of a document. -/
def readPaths (source : Shared) : Reading (List (String × PathItem)) := do
  let x ← mappingOrNone (source.get source.rootSpot "paths")
  let items ← readEach (fun (key, y) => do
    let item ← readPath source key y
    return (item.path, item)) (source.entries x)
  return byText items

/-! ## The document -/

/-- A pair of a key and a value, given by a value that lists two. -/
def readPair (source : Shared) (index : Nat) (x : Spot) : Reading (Key × Value) := do
  let parts ← listed source x
  match parts with
  | [k, y] => return (← Report.ofOption k.value.toKey?, source.whole y)
  | _ => Report.fail (.unpaired index parts.length)

/-- Numbers the items of a list from `n`. -/
def numbered {α : Type} : Nat → List α → List (Nat × α)
  | _, [] => []
  | n, a :: rest => (n, a) :: numbered (n + 1) rest

/-- The entries of a mapping, which may also be given as pairs. -/
def readSecuritySchemes (source : Shared) (x : Spot) : Reading Entries :=
  if !x.value.truthy then pure []
  else if x.value.isMap then pure ((source.entries x).map fun (k, y) => (k, source.whole y))
  else do
    let pairs ← readEach (fun (n, y) => readPair source n y) (numbered 0 (← listed source x))
    return Entries.ofPairs pairs

/-- The servers among the items of a list. -/
def readServers (source : Shared) (items : List Spot) : Reading (List Server) :=
  readEach (fun x => do
    let url ← shown (((source.find? x "url").map source.whole).getD (.str ""))
    return { url, description := source.valueOf x "description" })
    (items.filter fun x => x.value.isMap)

/-- What versions of the description format begin with. -/
def supportedVersion : String := "3.1"

/-- The document that a mapping describes. -/
def ofShared (source : Shared) : Reading Document := do
  let root := source.rootSpot
  if !root.value.truthy then Report.fail (.input none .empty)
  let openapi ← shown (((source.find? root "openapi").map source.whole).getD (.str ""))
  if !Text.startsWith supportedVersion openapi then
    Report.fail (.input (some "openapi") (.unsupportedVersion openapi))
  let info ← mappingOrNone (source.get root "info")
  let title ← shownOrEmpty (source.valueOf info "title")
  let version ← shownOrEmpty (source.valueOf info "version")
  let servers ← readServers source (← listedOrNone source (source.get root "servers"))
  let paths ← readPaths source
  let parts ← mappingOrNone (source.get root "components")
  let listedSchemas ← mappingOrNone (source.get parts "schemas")
  let schemas ← readEach (fun (key, y) => do
    return (← shownKey key, source.written y)) (source.entries listedSchemas)
  let securitySchemes ← readSecuritySchemes source (source.get parts "securitySchemes")
  let security ← listedOrNone source (source.get root "security")
  return {
    openapi
    info := { title, version, description := source.valueOf info "description" }
    servers
    paths
    components := byText schemas
    securitySchemes
    security := security.map source.whole
    links := source.links }

/-- The document that the entries of a mapping describe. -/
def ofEntries (entries : Entries) : Reading Document := ofShared { root := .map entries }

end ClientGen.Document
