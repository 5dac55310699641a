import ClientGen.Layout.Margin
import ClientGen.Name.Words
import ClientGen.Report.Failure

/-!
# Settings

How files are named and laid out, and what the package around them looks like.
-/

namespace ClientGen

/-- The module system that TypeScript is compiled to. -/
inductive ModuleSystem where
  | commonjs
  | esnext
deriving DecidableEq, Repr

/-- The word for a module system. -/
def ModuleSystem.label : ModuleSystem → String
  | commonjs => "commonjs"
  | esnext => "esnext"

/-- The module system that a word names. -/
def ModuleSystem.ofLabel? (s : String) : Option ModuleSystem :=
  [commonjs, esnext].find? (·.label == s)

/-- How files are named, and how wide their lines may be. -/
structure FileSettings where
  naming : Name.Convention := .kebab
  maxLineWidth : Int := 80
  /-- Lines have room for something. -/
  maxLineWidth_pos : 0 < maxLineWidth := by decide

/-- File settings, unless lines have no room. -/
def FileSettings.make (naming : Name.Convention) (maxLineWidth : Int) :
    Except Failure FileSettings :=
  if h : 0 < maxLineWidth then .ok ⟨naming, maxLineWidth, h⟩
  else .error (.badWidth maxLineWidth)

/-- What the package around the generated files looks like. -/
structure PackageSettings where
  /-- Whether there is a package at all. -/
  enabled : Bool := false
  name : Option String := none
  scope : Option String := none
  target : String := "es2020"
  module : ModuleSystem := .commonjs
  /-- Whether the package is also built as modules of the standard kind. -/
  esm : Bool := false
  buildScripts : Bool := true
deriving DecidableEq, Repr

/-- All settings. -/
structure Settings where
  files : FileSettings := {}
  package : PackageSettings := {}

/-- Text, unless it is missing or empty. -/
def nonempty? (s : Option String) : Option String := s.filter (!·.isEmpty)

/-- The name of the package with its scope; `fallback` stands for a name that is not set. -/
def PackageSettings.fullName (p : PackageSettings) (fallback : String) : String :=
  let name := (nonempty? p.name).getD fallback
  match nonempty? p.scope with
  | some scope => "@" ++ String.ofList (scope.toList.dropWhile (· == '@')) ++ "/" ++ name
  | none => name

/-- The margin of the generated files. -/
def Settings.margin (s : Settings) : Margin := { maxWidth := s.files.maxLineWidth }

/-- A naming convention by its word. -/
def readConvention (s : String) : Except Failure Name.Convention :=
  match Name.Convention.ofLabel? s with
  | some c => .ok c
  | none => .error (.badChoice s "NamingConvention")

/-- A module system by its word. -/
def readModuleSystem (s : String) : Except Failure ModuleSystem :=
  match ModuleSystem.ofLabel? s with
  | some m => .ok m
  | none => .error (.badChoice s "TypeScriptModule")

end ClientGen
