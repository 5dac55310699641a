import ClientGen.Files.Path
import ClientGen.Files.Utf8
import ClientGen.Report.Failure

/-!
# Generated files

A generated file has a name, a text and a category, which decides the directory it goes to. No two
files of one category may have the same name.
-/

namespace ClientGen

/-- What a generated file is about. -/
inductive Category where
  | apis
  | models
  | runtime
  | project
deriving DecidableEq, Repr

namespace Category

/-- The word for a category. -/
def label : Category → String
  | apis => "apis"
  | models => "models"
  | runtime => "runtime"
  | project => "project_files"

/-- All categories. -/
def all : List Category := [apis, models, runtime, project]

/-- The category that a word names. -/
def ofLabel? (s : String) : Option Category := all.find? (·.label == s)

/-- The directory of a category below the output directory; project files stand in that one. -/
def directory : Category → Path
  | project => ⟨"", []⟩
  | c => ⟨"", [c.label]⟩

end Category

/-- A category by its word. -/
def readCategory (s : String) : Except Failure Category :=
  match Category.ofLabel? s with
  | some c => .ok c
  | none => .error (.badChoice s "FileCategory")

/-- A generated file. -/
structure OutputFile where
  name : String
  text : String
  category : Category
deriving DecidableEq, Repr

namespace OutputFile

/-- The path of a file below the output directory. -/
def relativePath (f : OutputFile) : Path := f.category.directory.join (.ofString f.name)

/-- A file, whose text has to have bytes. -/
def encodable (f : OutputFile) : Except Failure OutputFile :=
  if (Utf8.encode? f.text).isSome then .ok f else .error .unencodable

/-- Whether two files would take the same place. -/
def clashes (f g : OutputFile) : Bool := f.category == g.category && f.name == g.name

/-- Reports the first file that takes the place of one before it. -/
def checkDistinctAfter (seen : List OutputFile) : List OutputFile → Except Failure Unit
  | [] => .ok ()
  | f :: rest =>
    if seen.any f.clashes then
      .error (.emission (some f.name) (.duplicateFile f.category.label))
    else checkDistinctAfter (f :: seen) rest

/-- Checks that no two files take the same place. -/
def checkDistinct (files : List OutputFile) : Except Failure Unit := checkDistinctAfter [] files

end OutputFile

/-- Texts by path, in the order of first mention. -/
abbrev PathTexts := List (Path × String)

/-- Sets the text of a path, keeping its place. -/
def PathTexts.set (p : Path) (text : String) : PathTexts → PathTexts
  | [] => [(p, text)]
  | (q, t) :: rest => if q = p then (q, text) :: rest else (q, t) :: PathTexts.set p text rest

/-- Texts by path, where later ones take the place of earlier ones. -/
def PathTexts.update (known new : PathTexts) : PathTexts :=
  new.foldl (fun all f => PathTexts.set f.1 f.2 all) known

/-- The paths of files below a directory. -/
def outputPaths (directory : Path) (files : List OutputFile) : PathTexts :=
  PathTexts.update [] (files.map fun f => (directory.join f.relativePath, f.text))

end ClientGen
