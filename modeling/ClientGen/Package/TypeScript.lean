import ClientGen.Client.ApiClass
import ClientGen.Document.Passes
import ClientGen.Document.Source
import ClientGen.Files.Output
import ClientGen.Package.Manifest
import ClientGen.Package.RuntimeModule
import ClientGen.Schema.Declare

/-!
# The TypeScript client of a document

A client has a file for every declared model, one for every class, the run-time module, and an index
that exports all of them; a package adds its project files.
-/

namespace ClientGen.Package

open Schema (Lowering Scope)

/-! ## Models -/

/-- The schemas of a document in view. -/
def scopeOf (d : Document) : Scope := { components := d.schemas }

/-- The declarations of schemas, one after the other. -/
def declareAll (scope : Scope) : Schema.Components → Lowering (List Declaration)
  | [] => pure []
  | (name, schema) :: rest => do
    let declared ← Schema.declare scope [] name schema
    return declared :: (← declareAll scope rest)

/-- The declarations of a document in the order of their names. -/
def declarationsOf (d : Document) (scope : Scope) : Lowering (List Declaration) := do
  let all ← declareAll scope d.schemas
  return all.mergeSort fun a b => Text.le a.name b.name

/-- The module of each declared type. -/
def modulesOf (naming : Name.Convention) (declarations : List Declaration) :
    List (String × String) :=
  declarations.foldl (fun known decl => Schema.setPair decl.name (naming.apply decl.name) known) []

/-- The imports of a model file: the models that it refers to, apart from its own. -/
def importsOf (modules : List (String × String)) (decl : Declaration) : List Import :=
  (sortedNames decl.names).filterMap fun name =>
    if name = decl.name then none
    else (modules.lookup name).map fun module => {
      module := "./" ++ module, specifiers := [{ name }], isTypeOnly := true : Import }

/-- The file of a model. -/
def modelFile (width : Int) (modules : List (String × String)) (decl : Declaration) :
    OutputFile :=
  let imports := (importsOf modules decl).map (·.text width)
  let sections := [Source.shortNotice]
    ++ (if imports.isEmpty then [] else [Text.unlines imports])
    ++ [decl.text width]
  { name := (modules.lookup decl.name).getD "" ++ ".ts"
    text := "\n\n".intercalate sections ++ "\n"
    category := .models }

/-! ## Other files -/

/-- The file of a class. -/
def classFile (margin : Margin) (c : Client.Class) : Except Failure OutputFile := do
  let file : OutputFile := { name := c.name ++ ".ts", text := ← c.text margin, category := .apis }
  file.encodable

/-- The file of the run-time module. -/
def runtimeFile (d : Document) : OutputFile where
  name := "runtime.ts"
  text := runtimeText d.info.title d.info.version d.basePath
  category := .runtime

/-- The module that a file is. -/
def moduleOf (fileName : String) : String :=
  if Text.endsWith ".ts" fileName then
    String.ofList (fileName.toList.take (fileName.length - 3))
  else fileName

/-- The lines that export the modules of a directory. -/
def exportLines (directory : String) (files : List OutputFile) : List String :=
  ((files.map fun f => moduleOf f.name).mergeSort Text.le).map fun module =>
    "export * from './" ++ directory ++ "/" ++ module ++ "';"

/-- The index of a client. -/
def indexFile (models classes : List OutputFile) : OutputFile where
  name := "index.ts"
  text := Text.unlines (
    [Source.shortNotice, "", "export * from './runtime/runtime';"]
    ++ exportLines "models" models ++ exportLines "apis" classes ++ [""])
  category := .project

/-- The method of a class that serves as an example. -/
def exampleMethod (c : Client.Class) : Option String :=
  (c.methods.map (·.signature.name)).find? fun name =>
    name != "constructor" && !Text.endsWith "Raw" name

/-- The introduction of the package for a document. -/
def introductionOf (p : PackageSettings) (d : Document) (classes : List Client.Class) :
    Introduction where
  packageName := packageName p d.info.title
  description := d.info.description.present?.map Value.display
  title := d.info.title
  version := d.info.version
  basePath := d.basePath
  exampleClass := classes.head?.map (·.name)
  exampleMethod := classes.head?.bind exampleMethod

/-- The project files of a package. -/
def projectFiles (p : PackageSettings) (d : Document) (classes : List Client.Class) :
    Except Textless (List OutputFile) := do
  let file (name text : String) : OutputFile := { name, text, category := .project }
  let package ← Json.document (manifest p d.info)
  let compiler ← Json.document (compilerSettings p)
  let esm ← Json.document esmSettings
  return [file "package.json" package, file "tsconfig.json" compiler]
    ++ (if p.esm then [file "tsconfig.esm.json" esm] else [])
    ++ [file "README.md" (introductionOf p d classes).text]

/-! ## The client -/

/-- The files of the client of a document. -/
def typeScriptFiles (settings : Settings) (d : Document) : Lowering (List OutputFile) := do
  let scope := scopeOf d
  let width := settings.margin.available
  let declarations ← declarationsOf d scope
  let modules := modulesOf settings.files.naming declarations
  let models ← Report.ofExcept
    (declarations.mapM fun decl => (modelFile width modules decl).encodable)
  let classes ← Client.apiClasses d scope width modules
  let classFiles ← Report.ofExcept (classes.mapM (classFile settings.margin))
  let runtime ← Report.ofExcept (runtimeFile d).encodable
  let project ←
    if settings.package.enabled then do
      let files ← Report.ofText (projectFiles settings.package d classes)
      Report.ofExcept (files.mapM OutputFile.encodable)
    else pure []
  let files := models ++ classFiles ++ [runtime, indexFile models classFiles] ++ project
  Report.ofExcept (OutputFile.checkDistinct files)
  return files

end ClientGen.Package
