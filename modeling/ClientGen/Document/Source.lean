import ClientGen.Document.Read
import ClientGen.Files.Path
import ClientGen.Json.Reader
import ClientGen.Yaml.Reader

/-!
# The text of a document

Documents are written in JSON or in YAML. The ending of the file name tells which, and otherwise
the first character that is not blank.
-/

namespace ClientGen.Document

/-- A format of documents. -/
inductive Format where
  | json
  | yaml
deriving DecidableEq, Repr

/-- The word for a format. -/
def Format.label : Format → String
  | json => "json"
  | yaml => "yaml"

/-- The format that the name of a file tells. -/
def formatOfPath? (path : Path) : Option Format :=
  let suffix := Text.lower path.suffix
  if suffix == ".json" then some .json
  else if suffix == ".yaml" || suffix == ".yml" then some .yaml
  else none

/-- The format that a text has by its first character. -/
def formatOfText (text : String) : Format :=
  if Text.startsWith "\x7b" (Text.trimStart text) then .json else .yaml

/-- The format of a text in a file. -/
def detectFormat (path : Path) (text : String) : Format :=
  (formatOfPath? path).getD (formatOfText text)

/-- The value that a text denotes. -/
def valueOf (format : Format) (text : String) (source : Option String) : Reading Shared :=
  match format with
  | .json =>
    match Json.read text with
    | .ok v => pure { root := v }
    | .error ⟨.tooManyDigits count, _⟩ => Report.fail (.badScalar (.tooManyDigits count))
    | .error ⟨.tooDeep, _⟩ => Report.malformed
    | .error e => Report.fail (.input source (.invalidJson e text))
  | .yaml =>
    match Yaml.read text with
    | .ok shared => pure shared
    | .error .broken => Report.fail (.input source .invalidYaml)
    | .error (.badScalar fault) => Report.fail (.badScalar fault)
    | .error .unusable => Report.malformed

/-- The document that a text denotes. `source` is what messages call the text. -/
def ofText (format : Format) (text : String) (source : Option String) : Reading Document := do
  let shared ← valueOf format text source
  if shared.root.isMap then ofShared shared
  else Report.fail (.input source .rootNotMapping)

/-- The address of the first server, or that of the local machine. -/
def basePath (d : Document) : String :=
  match d.servers with
  | s :: _ => if s.url.isEmpty then "http://localhost" else s.url
  | [] => "http://localhost"

end ClientGen.Document
