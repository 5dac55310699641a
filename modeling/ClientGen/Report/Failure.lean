import ClientGen.Files.Fault
import ClientGen.Json.Reader
import ClientGen.Yaml.Fault

/-!
# Failures

Why no client was generated. A failure may name the element it is about, a file or a part of the
document, which goes before its message in brackets. Each kind has an exit code of its own.
-/

namespace ClientGen

/-- What is wrong with a document. -/
inductive InputFault where
  | unreadable (fault : FileFault) (path : String)
  | undecodable (fault : Utf8Fault)
  | invalidJson (error : Json.ReadError) (text : String)
  | invalidYaml
  | rootNotMapping
  | empty
  | unsupportedVersion (version : String)
  | pathNotMapping
  | titleMissing
  | versionMissing
  | schemaNotMapping
deriving DecidableEq, Repr

/-- What is wrong with a file to be generated. -/
inductive EmissionFault where
  | templateMissing (name : String)
  /-- A template asked for something that its context lacks. -/
  | renderingFailed (reason : String)
  | duplicateFile (category : String)
  /-- A reason given by a backend of the caller. -/
  | refused (reason : String)
deriving DecidableEq, Repr

/-- Why no client was generated. -/
inductive Failure where
  | input (element : Option String) (fault : InputFault)
  | unknownLanguage (key : String) (available : List String)
  | unwritable (path : String) (fault : FileFault) (place : String)
  /-- A path holds a character that no path can hold. -/
  | impossiblePath
  /-- A path or the text of a file has no bytes. -/
  | unencodable
  /-- What the output directory holds cannot be kept, since an operation on its path was refused. -/
  | unkept (directory : String) (fault : FileFault)
  /-- The output directory cannot be put back, since an operation on a path was refused. -/
  | unrestorable (directory : String) (fault : FileFault) (path : String)
  | emission (element : Option String) (fault : EmissionFault)
  | badWidth (width : Int)
  | badChoice (word choices : String)
  /-- An item that should be a pair lists another number of values. -/
  | unpaired (index length : Nat)
  /-- A value has no text where one is needed. -/
  | textless (cause : Textless)
  /-- A scalar of a YAML text does not fit its type. -/
  | badScalar (fault : Yaml.ScalarFault)
  /-- The document has a value of a kind that cannot be used where it stands. -/
  | malformed
deriving DecidableEq, Repr

/-- The description of a fault in a document. -/
def InputFault.message : InputFault → String
  | unreadable fault path => "cannot read specification file: " ++ fault.message path
  | undecodable fault => "cannot read specification file: " ++ fault.message
  | invalidJson error text => "invalid JSON: " ++ error.message text
  | invalidYaml => "invalid YAML"
  | rootNotMapping => "specification root must be a mapping"
  | empty => "No specification data loaded"
  | unsupportedVersion version =>
    let shown := if version.isEmpty then "missing" else version
    s!"unsupported OpenAPI version '{shown}', expected 3.1.x"
  | pathNotMapping => "path item must be a mapping"
  | titleMissing => "info.title is required"
  | versionMissing => "info.version is required"
  | schemaNotMapping => "schema must be a mapping"

/-- The description of a fault in a generated file. -/
def EmissionFault.message : EmissionFault → String
  | templateMissing name => "template not found: " ++ name
  | renderingFailed reason => "template rendering failed: " ++ reason
  | duplicateFile category => s!"duplicate {category} filename"
  | refused reason => reason

/-- A message with the element that it is about. -/
def aboutElement (element : Option String) (message : String) : String :=
  match element with
  | none => message
  | some e => if e.isEmpty then message else s!"[{e}] {message}"

namespace Failure

/-- The description of a failure. -/
def message : Failure → String
  | input element fault => aboutElement element fault.message
  | unknownLanguage key available =>
    s!"generator not found for language '{key}'"
      ++ if available.isEmpty then "" else " (available: " ++ ", ".intercalate available ++ ")"
  | unwritable path fault place => aboutElement (some place) (fault.message path)
  | impossiblePath => FileFault.nullCharacter.message ""
  | unencodable => FileFault.noBytes.message ""
  | unkept directory fault =>
    aboutElement (some directory) ("cannot back up output directory: " ++ fault.message directory)
  | unrestorable directory fault path =>
    aboutElement (some directory) ("cannot restore output directory: " ++ fault.message path)
  | emission element fault => aboutElement element fault.message
  | badWidth width => s!"max_line_width must be positive, got {width}"
  | badChoice word choices => s!"{Value.quoted word} is not a valid {choices}"
  | unpaired index length =>
    s!"dictionary update sequence element #{index} has length {length}; 2 is required"
  | textless cause => cause.message
  | badScalar fault => fault.message
  | malformed => "crash"

/-- The word for the kind of failure, where it has one. -/
def kind? : Failure → Option String
  | input _ _ => some "input"
  | unknownLanguage _ _ => some "generator-not-found"
  | unwritable _ _ _ => some "filesystem"
  | unkept _ _ => some "filesystem"
  | unrestorable _ _ _ => some "filesystem"
  | emission _ _ => some "emission"
  | _ => none

/-- The exit code of a run that fails. -/
def exitCode : Failure → Nat
  | input _ _ => 1
  | unknownLanguage _ _ => 2
  | unwritable _ _ _ => 3
  | unkept _ _ => 3
  | unrestorable _ _ _ => 3
  | _ => 4

/-- What the user is told of a failure; one without a kind is not explained. -/
def describe (f : Failure) : String :=
  match f.kind? with
  | some kind => s!"{kind} error: {f.message}"
  | none => malformed.message

end Failure

end ClientGen
