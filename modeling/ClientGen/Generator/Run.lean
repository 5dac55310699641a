import ClientGen.Package.TypeScript
import ClientGen.Crate.Files
import ClientGen.Document.Copy
import ClientGen.Files.Disk

/-!
# A run of the generator

A backend makes the files of a client in one language. A registry knows backends by keys, which are
looked up in small letters and without blank space around them.

A run reads a document, makes the files of every language, and only then writes. Several languages
get a directory each. What was written before a write is refused stays written.
-/

namespace ClientGen

/-! ## Languages -/

/-- What makes the files of a client in a language. -/
structure Backend where
  language : String
  files : Settings → Document → Report Warning (List OutputFile)

namespace Backend

/-- The backend for TypeScript. -/
def typeScript : Backend where
  language := "typescript"
  files settings d := Schema.warned (Package.typeScriptFiles settings d)

/-- The backend for Rust. -/
def rust : Backend where
  language := "rust"
  files settings d := Crate.crateFiles settings.package d

/-- The files for a document as it was read. -/
def filesOf (b : Backend) (settings : Settings) (d : Document) :
    Report Warning (List OutputFile) := do
  b.files settings (← d.prepare)

end Backend

/-- Backends by their keys. -/
structure Registry where
  backends : List (String × Backend) := []

namespace Registry

/-- Adds a backend under a key, in place of one that is there. -/
def register (key : String) (b : Backend) (r : Registry) : Registry where
  backends := Schema.setPair (Text.lower key) b r.backends

/-- All keys in ascending order. -/
def available (r : Registry) : List String := sortedNames (r.backends.map (·.1))

/-- The backend of a key. -/
def get (r : Registry) (key : String) : Except Failure Backend :=
  match r.backends.lookup (Text.lower (Text.trim key)) with
  | some b => .ok b
  | none => .error (.unknownLanguage key r.available)

/-- The registry of the languages that are known. -/
def standard : Registry :=
  (({} : Registry).register "typescript" .typeScript |>.register "ts" .typeScript).register "rust"
    .rust

/-- The backends of keys, each language once. `known` are the languages so far. -/
def selectAfter (r : Registry) (known : List String) : List String → Except Failure (List Backend)
  | [] => .ok []
  | key :: rest => do
    let b ← r.get key
    if known.contains b.language then r.selectAfter known rest
    else return b :: (← r.selectAfter (b.language :: known) rest)

/-- The backends of keys, of which there has to be one. -/
def select (r : Registry) (keys : List String) : Except Failure (List Backend) :=
  if keys.isEmpty then .error (.unknownLanguage "" r.available) else r.selectAfter [] keys

end Registry

/-- What a run works with. -/
structure Generator where
  registry : Registry := .standard
  settings : Settings := {}

namespace Generator

/-! ## Making files -/

/-- The directory for the files of a backend. -/
def directoryFor (directory : Path) (severally : Bool) (b : Backend) : Path :=
  if severally then directory.join (.ofString b.language) else directory

/-- The files of backends, added to those `known`. -/
def filesAfter (g : Generator) (d : Document) (directory : Path) (severally : Bool)
    (known : PathTexts) : List Backend → Report Warning PathTexts
  | [] => pure known
  | b :: rest => do
    let copy ← Report.ofOption d.copy?
    let files ← b.filesOf g.settings copy
    let texts := outputPaths (directoryFor directory severally b) files
    g.filesAfter d directory severally (known.update texts) rest

/-- The files of a document in the languages of keys. -/
def filesOf (g : Generator) (d : Document) (directory : Path) (keys : List String) :
    Report Warning PathTexts := do
  let backends ← Report.ofExcept (g.registry.select keys)
  g.filesAfter d directory (1 < backends.length) [] backends

/-! ## Reading and writing -/

/-- The document in the file at a path. -/
def readDocument (disk : Disk) (p : Path) : Report Warning Document :=
  match disk.readBytes p with
  | .error .nullCharacter => Report.fail .impossiblePath
  | .error .noBytes => Report.fail .unencodable
  | .error fault => Report.fail (.input (some p.toString) (.unreadable fault p.toString))
  | .ok bytes =>
    match Utf8.fileText bytes with
    | .error fault => Report.fail (.input (some p.toString) (.undecodable fault))
    | .ok text => Document.ofText (Document.detectFormat p text) text (some p.toString)

/-- The failure to write a file at a path. -/
def refused (p : Path) (refusal : Refusal) : Failure :=
  match refusal.fault with
  | .nullCharacter => .impossiblePath
  | .noBytes => .unencodable
  | fault => .unwritable refusal.path.toString fault p.toString

/-- Writes texts one after the other, up to the first that is refused. -/
def writeAll : PathTexts → Disk → Disk × Except Failure Unit
  | [], disk => (disk, .ok ())
  | (p, text) :: rest, disk =>
    match disk.writeText p text with
    | (disk, .ok _) => writeAll rest disk
    | (disk, .error refusal) => (disk, .error (refused p refusal))

/-- Writes the files of a document, and gives them. -/
def runDocument (g : Generator) (d : Report Warning Document) (directory : Path)
    (keys : List String) (disk : Disk) : Disk × Report Warning PathTexts :=
  let made : Report Warning PathTexts := do g.filesOf (← d) directory keys
  match made.result with
  | .error _ => (disk, made)
  | .ok texts =>
    match writeAll texts disk with
    | (disk, .ok _) => (disk, made)
    | (disk, .error failure) => (disk, ⟨made.notes, .error failure⟩)

/-- Reads the document at a path and writes its files. -/
def run (g : Generator) (input directory : Path) (keys : List String) (disk : Disk) :
    Disk × Report Warning PathTexts :=
  g.runDocument (readDocument disk input) directory keys disk

end Generator

end ClientGen
