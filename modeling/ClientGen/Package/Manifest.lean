import ClientGen.Config
import ClientGen.Document.Basic
import ClientGen.Json.Writer
import ClientGen.Source.Comment
import ClientGen.Source.Literal
import ClientGen.Source.Version

/-!
# Project files of a client

The manifest of the package, the settings of the compiler and the file that introduces the package
to readers.
-/

namespace ClientGen.Package

/-- The name of the package for a document. -/
def packageName (p : PackageSettings) (title : String) : String :=
  let fallback := Name.kebab title
  p.fullName (if fallback.isEmpty then "api-client" else fallback)

/-- A description, or else one made from a title. -/
def descriptionOr (i : Info) (what : String) : Value :=
  i.description.present?.getD (.str (what ++ " for " ++ i.title))

/-- The version of the package for a document. -/
def versionOf (i : Info) : String :=
  if i.version.isEmpty then Source.defaultVersion else Source.packageVersion i.version

/-- The manifest of the package. -/
def manifest (p : PackageSettings) (i : Info) : Value :=
  let build := if p.esm then "tsc && tsc -p tsconfig.esm.json" else "tsc"
  Json.object (
    [("name", .str (packageName p i.title)), ("version", .str (versionOf i)),
      ("description", descriptionOr i "TypeScript client"), ("main", .str "dist/index.js"),
      ("types", .str "dist/index.d.ts")]
    ++ (if p.esm then [("module", .str "dist/esm/index.js")] else [])
    ++ [("files", Json.strings ["dist"])]
    ++ (if p.buildScripts then
        [("scripts", Json.object [("build", .str build), ("prepare", .str "npm run build")])]
      else [])
    ++ [("devDependencies", Json.object [("typescript", .str "^5.4.0")])])

/-- The settings of the compiler. -/
def compilerSettings (p : PackageSettings) : Value :=
  Json.object [
    ("compilerOptions", Json.object [
      ("target", .str p.target), ("module", .str p.module.label),
      ("moduleResolution", .str "node"), ("lib", Json.strings [p.target, "dom"]),
      ("declaration", .bool true), ("strict", .bool true), ("esModuleInterop", .bool true),
      ("skipLibCheck", .bool true), ("rootDir", .str "."), ("outDir", .str "dist")]),
    ("include", Json.strings ["index.ts", "apis/**/*.ts", "models/**/*.ts", "runtime/**/*.ts"]),
    ("exclude", Json.strings ["dist", "node_modules"])]

/-- The settings of the compiler for modules of the standard kind. -/
def esmSettings : Value :=
  Json.object [
    ("extends", .str "./tsconfig.json"),
    ("compilerOptions", Json.object [
      ("module", .str ModuleSystem.esnext.label), ("outDir", .str "dist/esm")])]

/-! ## Introduction for readers -/

/-- What the introduction of a package tells. -/
structure Introduction where
  packageName : String
  /-- The description, where there is one. -/
  description : Option String
  title : String
  version : String
  basePath : String
  /-- The class that serves as an example. -/
  exampleClass : Option String
  /-- The method that serves as an example. -/
  exampleMethod : Option String

/-- The lines that show how a client is used. -/
def usageLines (i : Introduction) : List String :=
  match i.exampleClass with
  | none => [
    "The package exposes the runtime \x60Configuration\x60 and \x60BaseAPI\x60 types; "
      ++ "the document declares no operations."]
  | some name =>
    ["\x60\x60\x60ts",
      "import \x7b Configuration, " ++ name ++ " \x7d from '" ++ i.packageName ++ "';",
      "",
      "const api = new " ++ name ++ "(new Configuration(\x7b basePath: "
        ++ Source.singleQuoted i.basePath ++ " \x7d));"]
    ++ (match i.exampleMethod with
      | some method => ["const result = await api." ++ method ++ "(/* ... */);"]
      | none => [])
    ++ ["\x60\x60\x60"]

/-- The introduction of a package. -/
def Introduction.text (i : Introduction) : String :=
  Text.unlines (
    [Source.banner "" "" .markup, "", "# " ++ i.packageName, ""]
    ++ (match i.description with
      | some d => [d, ""]
      | none => [])
    ++ ["TypeScript client for **" ++ i.title ++ "** (API version " ++ i.version
        ++ "), generated from its OpenAPI document.",
      "", "## Installation", "", "\x60\x60\x60sh", "npm install " ++ i.packageName,
      "\x60\x60\x60", "", "## Usage", ""]
    ++ usageLines i
    ++ ["", "## Layout", "",
      "- \x60apis/\x60 one client class per operation tag",
      "- \x60models/\x60 one module per component schema",
      "- \x60runtime/runtime.ts\x60 request plumbing shared by every client class",
      "- \x60index.ts\x60 re-exports everything above", ""])

end ClientGen.Package
