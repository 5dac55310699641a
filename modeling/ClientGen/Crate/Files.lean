import ClientGen.Config
import ClientGen.Document.Basic
import ClientGen.Files.Output
import ClientGen.Crate.Model
import ClientGen.Source.Comment
import ClientGen.Source.Literal
import ClientGen.Source.Version

/-!
# The Rust crate of a document

A crate has a module for every model, the module that lists them, the root module, the manifest and
an introduction for readers.
-/

namespace ClientGen.Crate

/-- A description as lines of comment, if there is one. It has to be text. -/
def commentLines (description : Value) (indent : Nat) : Except Failure (List String) :=
  if !description.truthy then .ok []
  else
    match description with
    | .str s => .ok [Source.lineComments s indent]
    | _ => .error .malformed

/-- The banner of the modules of a crate. -/
def moduleBanner : String := Source.banner "" "" .slashes

/-! ## Models -/

/-- What the declaration of a field shows. -/
structure FieldSheet where
  description : Value
  /-- The name on the wire, where it has to be given. -/
  wireName : Option String
  isOptional : Bool
  name : String
  type : String

/-- What the declaration of a type shows. -/
inductive DeclarationSheet where
  | struct (fields : List FieldSheet)
  | enum (variants : List EnumVariant)
  | typeAlias (type : String)

/-- What the module of a model shows. -/
structure ModelSheet where
  uses : List String
  description : Value
  typeName : String
  declaration : DeclarationSheet

/-- What the declaration of a field shows. -/
def Field.sheet (f : Field) : FieldSheet where
  description := f.description
  wireName := if needsRename f.name f.wireName then some f.wireName else none
  isOptional := f.type.isOption
  name := f.name
  type := f.type.text

/-- What the module of a model shows. -/
def Model.sheet (m : Model) : ModelSheet where
  uses := m.useStatements
  description := m.description
  typeName := m.typeName
  declaration :=
    match m.shape with
    | .struct fields => .struct (fields.map Field.sheet)
    | .enum variants => .enum variants
    | .typeAlias type => .typeAlias type.text

/-- The lines of a field. -/
def FieldSheet.lines (f : FieldSheet) : Except Failure (List String) := do
  let comment ← commentLines f.description 4
  let renamed := match f.wireName with
    | some name => ["    #[serde(rename = " ++ Source.doubleQuoted name ++ ")]"]
    | none => []
  let skipped :=
    if f.isOptional then
      ["    #[serde(default, skip_serializing_if = \"Option::is_none\")]"]
    else []
  return comment ++ renamed ++ skipped ++ ["    pub " ++ f.name ++ ": " ++ f.type ++ ","]

/-- The lines of a variant. -/
def EnumVariant.lines (v : EnumVariant) : List String := [
  "    #[serde(rename = " ++ Source.doubleQuoted v.value ++ ")]",
  "    " ++ v.name ++ ","]

/-- The lines that declare a type. -/
def DeclarationSheet.lines (typeName : String) : DeclarationSheet → Except Failure (List String)
  | .struct fields => do
    let lines ← fields.mapM FieldSheet.lines
    return ["#[derive(Clone, Debug, PartialEq, Serialize, Deserialize)]",
      "pub struct " ++ typeName ++ " \x7b"] ++ lines.flatten ++ ["\x7d"]
  | .enum variants =>
    .ok (["#[derive(Clone, Copy, Debug, PartialEq, Eq, Hash, Serialize, Deserialize)]",
      "pub enum " ++ typeName ++ " \x7b"] ++ variants.flatMap EnumVariant.lines ++ ["\x7d"])
  | .typeAlias type => .ok ["pub type " ++ typeName ++ " = " ++ type ++ ";"]

/-- The text of a model's module. -/
def ModelSheet.text (m : ModelSheet) : Except Failure String := do
  let comment ← commentLines m.description 0
  let declaration ← m.declaration.lines m.typeName
  return Text.unlines (
    [moduleBanner, ""] ++ (if m.uses.isEmpty then [] else m.uses ++ [""]) ++ comment
      ++ declaration ++ [""])

/-- The text of a model's module. -/
def Model.text (m : Model) : Except Failure String := m.sheet.text

/-! ## The crate -/

/-- The text of the module that lists the models, each with its module and its type. -/
def listText (models : List (String × String)) : String :=
  Text.unlines (
    [moduleBanner, ""] ++ (models.map fun m => "pub mod " ++ m.1 ++ ";")
      ++ (if models.isEmpty then [] else [""])
      ++ (models.map fun m => "pub use self::" ++ m.1 ++ "::" ++ m.2 ++ ";") ++ [""])

/-- The text of the root module. -/
def rootText (title version : String) (description : Value) : Except Failure String := do
  let comment ← commentLines description 0
  return Text.unlines (
    [Source.banner title version .slashes, ""] ++ comment
      ++ ["pub mod models;", "", "pub use models::*;", ""])

/-- The text of the manifest. -/
def manifestText (name version description : String) : String :=
  Text.unlines [
    Source.banner "" "" .hash, "", "[package]",
    "name = " ++ Source.doubleQuoted name,
    "version = " ++ Source.doubleQuoted (Source.packageVersion version),
    "edition = \"2021\"",
    "description = " ++ Source.doubleQuoted description,
    "", "[lib]", "path = \"lib.rs\"", "", "[dependencies]",
    "serde = \x7b version = \"1.0\", features = [\"derive\"] \x7d",
    "serde_json = \"1.0\"", ""]

/-- The text of the introduction for readers; the first model serves as an example. -/
def introductionText (name description title version : String) (example? : Option String) :
    String :=
  Text.unlines (
    [Source.banner "" "" .markup, "", "# " ++ name, "", description, "",
      "Generated from **" ++ title ++ "** (API version " ++ version
        ++ "). The crate holds the",
      "schema models only; every component schema becomes a struct, a string enum or",
      "a type alias under \x60models/\x60.", "", "## Usage", "", "\x60\x60\x60toml",
      "[dependencies]", name ++ " = \x7b path = \".\" \x7d", "\x60\x60\x60", ""]
    ++ (match example? with
      | some model => ["\x60\x60\x60rust", "use " ++ name ++ "::models::" ++ model ++ ";",
          "\x60\x60\x60"]
      | none => [])
    ++ [""])

/-- The name of the crate for a document. -/
def crateName (p : PackageSettings) (title : String) : String :=
  let name := Name.snake ((nonempty? p.name).getD title)
  if name.isEmpty then "api_client" else name

/-- The models of component schemas, one after the other. -/
def modelsOf (all : Schema.Components) : Schema.Components → Lowering (List Model)
  | [] => pure []
  | (name, schema) :: rest => do
    let model ← modelOf all name schema
    return model :: (← modelsOf all rest)

/-- The files of the crate of a document. -/
def crateFiles (p : PackageSettings) (d : Document) : Lowering (List OutputFile) := do
  let unsorted ← modelsOf d.schemas d.schemas
  let models := unsorted.mergeSort fun a b => Text.le a.fileName b.fileName
  let info := d.info
  let name := crateName p info.title
  let file (category : Category) (name text : String) : Except Failure OutputFile :=
    ({ name, text, category } : OutputFile).encodable
  let modules ← Report.ofExcept (models.mapM fun m => do
    file .models (m.fileName ++ ".rs") (← m.text))
  let listing ← Report.ofExcept
    (file .models "mod.rs" (listText (models.map fun m => (m.moduleName, m.typeName))))
  let root ← Report.ofExcept do
    file .project "lib.rs" (← rootText info.title info.version info.description)
  let description ← match info.description.present? with
    | none => pure ("Rust models for " ++ info.title)
    | some v => Report.ofOption v.str?
  let manifest ← Report.ofExcept
    (file .project "Cargo.toml" (manifestText name info.version description))
  let introduction ← Report.ofExcept
    (file .project "README.md"
      (introductionText name description info.title info.version
        (models.head?.map Model.typeName)))
  let files := modules ++ [listing, root, manifest, introduction]
  Report.ofExcept (OutputFile.checkDistinct files)
  return files

end ClientGen.Crate
