import ClientGen.Client.Class
import ClientGen.Package.Manifest
import ClientGen.Package.RuntimeModule
import ClientGen.Crate.Files
import ClientGen.Template.Context

/-!
# Templates by name

The files that are made from templates can also be made from loose data. Values are asked for in the
order of the text, so the first one that is missing in the text is the one that is reported.
-/

namespace ClientGen.Template

/-- The steps that only text can fail in, which was checked before. -/
def settled (text : Except Failure String) : Filling String := text.mapError fun _ => .unusable

/-- The title and version in a banner; the version only counts next to a title. -/
def bannerOf (c : Context) : Filling (String × String) := do
  c.uses "file_header"
  let title ← (c.slot "title").shownOrEmpty
  if title.isEmpty then return ("", "")
  return (title, ← (c.slot "version").shownOrEmpty)

/-! ## TypeScript -/

/-- The introduction of a package. -/
def introduction (c : Context) : Filling String := do
  c.uses "markdown_header"
  let packageName ← (c.slot "package_name").shown
  let description ←
    if ← (c.slot "description").isTrue then some <$> (c.slot "description").shown else pure none
  let title ← (c.slot "title").shown
  let version ← (c.slot "version").shown
  let page : Package.Introduction := {
    packageName, description, title, version, basePath := "", exampleClass := none
    exampleMethod := none }
  if ← (c.slot "example_api").isTrue then
    let exampleClass ← (← (c.slot "example_api").part "name").shown
    let basePath ← (c.slot "base_path").text
    let exampleMethod ←
      if ← (c.slot "example_method").isTrue then some <$> (c.slot "example_method").shown
      else pure none
    return { page with basePath, exampleClass := some exampleClass, exampleMethod }.text
  else return page.text

/-- The run-time module. -/
def runtime (c : Context) : Filling String := do
  let (title, version) ← bannerOf c
  return Package.runtimeText title version (← (c.slot "base_path").text)

/-- A class. Its parts cannot be given as loose data, so there is always a fault. -/
def classFile (c : Context) : Filling String := do
  c.uses "do_not_edit"
  let node := c.slot "class_node"
  if !(← (← node.part "imports").items).isEmpty then throw .unusable
  let _ ← (← node.part "documentation").isTrue
  throw .unusable

/-! ## Bodies of methods -/

/-- A parameter in the headers or in the query. -/
def parameter (s : Slot) : Filling Client.RequestParameter := do
  let name ← (← s.part "name").shown
  let wireName ← (← s.part "original_name").text
  return { name, wireName }

/-- The body of a method that sends a request. Path parameters cannot be given as loose data. -/
def body (t : Client.BodyTemplate) (c : Context) : Filling String := do
  let data := c.slot "data"
  let query ← eachOf parameter (← (← data.part "query_params").items)
  let sends := t = .send || t = .other
  let announces ← match ← data.part "body_param" with
    | .value .null => pure false
    | _ => pure sends
  let header ← eachOf parameter (← (← data.part "header_params").items)
  let hasAuth ← (← data.part "has_auth").isTrue
  let path ← data.part "path"
  if !(← (← data.part "path_params").items).isEmpty then throw .unusable
  let path ← match path with
    | .value (.str s) => pure s
    | _ => throw .unusable
  let method ← (← data.part "http_method").text
  let bodyParameter ←
    if !sends then pure none
    else do
      let parameter ← data.part "body_param"
      if ← parameter.isTrue then
        let name ← (← parameter.part "name").shown
        pure (some { name, wireName := "" })
      else pure none
  let responseKind ←
    if t = .delete then pure .void
    else if ← (← data.part "is_void").isTrue then pure .void
    else pure .json
  return t.textWith announces {
    methodName := "", method, path, queryParameters := query, headerParameters := header
    bodyParameter, responseKind, hasAuth }

/-- The body of a method that calls the one that sends the request. -/
def convenienceBody (c : Context) : Filling String := do
  let data := c.slot "data"
  let name ← (← data.part "raw_method_name").shown
  let arguments ← (← data.part "call_arguments").shownItems
  return Client.BodyTemplate.callText name arguments ++ "\n"

/-! ## Rust -/

/-- The manifest of a crate. -/
def crateManifest (c : Context) : Filling String := do
  c.uses "file_header"
  let name ← (c.slot "crate_name").text
  let version ← (c.slot "version").textOrEmpty
  return Crate.manifestText name version (← (c.slot "crate_description").text)

/-- The introduction of a crate. -/
def crateIntroduction (c : Context) : Filling String := do
  c.uses "markdown_header"
  let name ← (c.slot "crate_name").shown
  let description ← (c.slot "crate_description").shown
  let title ← (c.slot "title").shown
  let version ← (c.slot "version").shown
  let example? ←
    if ← (c.slot "models").isTrue then
      some <$> (← (← (c.slot "models").first).part "rust_struct_name").shown
    else pure none
  return Crate.introductionText name description title version example?

/-- The root module of a crate. -/
def crateRoot (c : Context) : Filling String := do
  let (title, version) ← bannerOf c
  settled (Crate.rootText title version (← (c.slot "description").optionalText))

/-- The module that lists the models of a crate. -/
def modelList (c : Context) : Filling String := do
  c.uses "file_header"
  let models ← (c.slot "models").items
  let modules ← eachOf (fun m => do (← m.part "rust_module_name").shown) models
  let types ← eachOf (fun m => do (← m.part "rust_struct_name").shown) models
  return Crate.listText (modules.zip types)

/-- A field of a struct. -/
def field (s : Slot) : Filling Crate.FieldSheet := do
  let description ← (← s.part "description").optionalText
  let wireName ←
    if ← (← s.part "needs_rename").isTrue then some <$> (← s.part "name").text else pure none
  let isOptional ← (← s.part "is_optional").isTrue
  let name ← (← s.part "rust_name").shown
  let type ← (← s.part "rust_type").shown
  return { description, wireName, isOptional, name, type }

/-- A variant of an enum. -/
def variant (s : Slot) : Filling Crate.EnumVariant := do
  let value ← (← s.part "value").text
  return { value, name := ← (← s.part "name").shown }

/-- The declaration of a model. -/
def modelDeclaration (model : Slot) : Filling (String × Crate.DeclarationSheet) := do
  let kind ← (← model.part "kind").get
  let typeName ← (← model.part "rust_struct_name").shown
  match kind with
  | .str "struct" => return (typeName, .struct (← eachOf field (← (← model.part "fields").items)))
  | .str "enum" => return (typeName, .enum (← eachOf variant (← (← model.part "variants").items)))
  | _ => return (typeName, .typeAlias (← (← model.part "alias_type").shown))

/-- The module of a model. -/
def modelModule (c : Context) : Filling String := do
  c.uses "file_header"
  let model := c.slot "model"
  let uses ← model.part "use_statements"
  let uses ← if ← uses.isTrue then uses.shownItems else pure []
  let description ← (← model.part "description").optionalText
  let (typeName, declaration) ← modelDeclaration model
  settled (Crate.ModelSheet.text { uses, description, typeName, declaration })

/-! ## By name -/

/-- The templates, by their names. -/
def templates : List (String × (Context → Filling String)) := [
  ("README.md.j2", introduction),
  ("runtime/runtime.j2", runtime),
  ("api/api_class.j2", classFile),
  ("api/method_bodies/_request_parts.j2", fun _ => .ok "\n\n\n"),
  ("api/method_bodies/api_method_convenience.j2", convenienceBody),
  ("api/method_bodies/api_method_delete.j2", fun c => (· ++ "\n") <$> body .delete c),
  ("api/method_bodies/api_method_get.j2", fun c => (· ++ "\n\n") <$> body .get c),
  ("api/method_bodies/api_method_post_put.j2", fun c => (· ++ "\n\n") <$> body .send c),
  ("api/method_bodies/default.j2", fun c => (· ++ "\n\n") <$> body .other c),
  ("api/method_bodies/constructor_base_api.j2", fun _ => .ok "super(configuration);\n"),
  ("rust/Cargo.toml.j2", crateManifest),
  ("rust/README.md.j2", crateIntroduction),
  ("rust/lib.rs.j2", crateRoot),
  ("rust/mod.rs.j2", modelList),
  ("rust/model.rs.j2", modelModule)]

/-- The template of a name. Empty parts of a name and single dots mean nothing. -/
def find? (name : String) : Option (Context → Filling String) :=
  templates.lookup (Client.plainTemplate name)

/-- The name that no value may have: it stands for the template itself. -/
def reservedName : String := "self"

/-- The text of a template filled with values. -/
def render (name : String) (c : Context) : Except Failure String :=
  match find? name with
  | none => .error (.emission (some name) (.templateMissing name))
  | some fill =>
    if Entries.has reservedName c then .error .malformed
    else (fill c).mapError (Fault.failure name)

end ClientGen.Template
