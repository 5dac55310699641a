import ClientGen.Files.Path
import ClientGen.Files.Tree
import ClientGen.Files.Utf8

/-!
# Files on a disk

A disk is a tree of files with a place that relative paths begin at. A path leads through
directories only, and a double dot leads back to the directory before; so what a path means depends
on the files. An operation that is refused names the path that it was asked for.
-/

namespace ClientGen

/-- A tree of files and the place that relative paths begin at. -/
structure Disk where
  root : Tree
  home : List String := []

/-- A refused operation: the fault and the path that it is about. -/
structure Refusal where
  fault : FileFault
  path : Path
deriving DecidableEq, Repr

/-- The description of a refusal. -/
def Refusal.message (r : Refusal) : String := r.fault.message r.path.toString

namespace Disk

/-! ## Names -/

/-- The most bytes that a name may have. -/
def longestName : Nat := 255

/-- The most bytes that the text of a path may have. -/
def longestPath : Nat := 4095

/-- Whether a name has more bytes than a name may have. -/
def isTooLong (name : String) : Bool := longestName < ((Utf8.nameBytes? name).getD []).length

/-- The fault of a path that cannot be looked up on any disk. -/
def pathFault? (p : Path) : Option FileFault :=
  match Utf8.nameBytes? p.toString with
  | none => some .noBytes
  | some bytes =>
    if bytes.contains 0 then some .nullCharacter
    else if longestPath < bytes.length then some .nameTooLong
    else none

/-- The parts of a path as the names of files. -/
def namesOf (p : Path) : List String := p.parts.map Utf8.fileName

/-! ## Places -/

/-- The place that names lead to from another place. -/
def walk (root : Tree) (place : List String) : List String → Except FileFault (List String)
  | [] => .ok place
  | name :: rest =>
    match root.at? place with
    | some (.directory es) =>
      if name = ".." then walk root place.dropLast rest
      else if isTooLong name then .error .nameTooLong
      else if (es.lookup name).isSome then walk root (place ++ [name]) rest
      else .error .missing
    | some (.file _) => .error .notDirectory
    | none => .error .missing

/-- The place that a path begins at. -/
def start (d : Disk) (p : Path) : List String := if p.root.isEmpty then d.home else []

/-- The place of something that is there. -/
def locate (d : Disk) (p : Path) : Except FileFault (List String) :=
  match pathFault? p with
  | some fault => .error fault
  | none => walk d.root (d.start p) (namesOf p)

/-- The place for something that may be there or not; the directory around it has to be there. -/
def placeFor (d : Disk) (p : Path) : Except FileFault (List String) :=
  match pathFault? p, (namesOf p).getLast? with
  | some fault, _ => .error fault
  | none, none => d.locate p
  | none, some name =>
    if name = ".." then d.locate p
    else
      match d.locate p.parent with
      | .error fault => .error fault
      | .ok place =>
        match d.root.at? place with
        | some (.directory _) =>
          if isTooLong name then .error .nameTooLong else .ok (place ++ [name])
        | some (.file _) => .error .notDirectory
        | none => .error .missing

/-- What is at a path. -/
def find? (d : Disk) (p : Path) : Option Tree :=
  match d.locate p with
  | .ok place => d.root.at? place
  | .error _ => none

/-- Whether there is a directory at a path. -/
def isDirectory (d : Disk) (p : Path) : Bool := (d.find? p).any Tree.isDirectory

/-- The disk with another tree at a place. -/
def put (d : Disk) (place : List String) (t : Tree) : Disk :=
  { d with root := Tree.put place t d.root }

/-! ## Reading -/

/-- The bytes of the file at a path. -/
def readBytes (d : Disk) (p : Path) : Except FileFault (List UInt8) :=
  match d.locate p with
  | .error fault => .error fault
  | .ok place =>
    match d.root.at? place with
    | some (.file bytes) => .ok bytes
    | some (.directory _) => .error .isDirectory
    | none => .error .missing

/-- The files below the place that relative paths begin at: their paths in ascending order, with
their bytes. -/
def listing (d : Disk) : List (String × List UInt8) :=
  let found := ((d.root.at? d.home).map Tree.files).getD []
  (found.map fun (place, bytes) => ("/".intercalate place, bytes)).mergeSort fun a b =>
    Text.le a.1 b.1

/-! ## Writing -/

/-- Makes one directory. -/
def makeDirectory (d : Disk) (p : Path) : Except FileFault Disk :=
  match d.placeFor p with
  | .error fault => .error fault
  | .ok place =>
    if (d.root.at? place).isSome then .error .alreadyThere else .ok (d.put place .empty)

/-- The outcome of making a directory, where one that is there already will do. -/
def settled (d : Disk) (p : Path) (fault : FileFault) : Disk × Except Refusal Unit :=
  (d, if d.isDirectory p then .ok () else .error ⟨fault, p⟩)

/-- Makes a directory and those before it that are missing. `reversed` holds the parts of its path,
the last one first. -/
def ensureParts (pathRoot : String) : (reversed : List String) → Disk → Disk × Except Refusal Unit
  | [], d => (d, .ok ())
  | name :: before, d =>
    let p : Path := ⟨pathRoot, (name :: before).reverse⟩
    match d.makeDirectory p with
    | .ok d => (d, .ok ())
    | .error .missing =>
      match ensureParts pathRoot before d with
      | (d, .error refusal) => (d, .error refusal)
      | (d, .ok _) =>
        match d.makeDirectory p with
        | .ok d => (d, .ok ())
        | .error fault => d.settled p fault
    | .error fault => d.settled p fault

/-- Makes sure that there is a directory at a path. -/
def ensureDirectory (p : Path) (d : Disk) : Disk × Except Refusal Unit :=
  ensureParts p.root p.parts.reverse d

/-- Writes a file, in place of one that is there. -/
def writeBytes (p : Path) (bytes : List UInt8) (d : Disk) : Except FileFault Disk :=
  match d.placeFor p with
  | .error fault => .error fault
  | .ok place =>
    match d.root.at? place with
    | some (.directory _) => .error .isDirectory
    | _ => .ok (d.put place (.file bytes))

/-- Writes a text to a file, with the directories around it. -/
def writeText (p : Path) (text : String) (d : Disk) : Disk × Except Refusal Unit :=
  match d.ensureDirectory p.parent with
  | (d, .error refusal) => (d, .error refusal)
  | (d, .ok _) =>
    let written := match Utf8.encode? text with
      | some bytes => d.writeBytes p bytes
      | none => .error .noBytes
    match written with
    | .ok d => (d, .ok ())
    | .error fault => (d, .error ⟨fault, p⟩)

/-! ## Keeping and restoring -/

/-- The directory at a path, if it holds something. A name that is too long cannot even be looked
for. -/
def filled? (d : Disk) (p : Path) : Except FileFault (Option Tree) :=
  match d.locate p with
  | .error .nameTooLong => .error .nameTooLong
  | _ => .ok ((d.find? p).filter Tree.isFilledDirectory)

/-- Puts back a directory that was there before: it is emptied, deleted and made anew. The directory
that paths begin at cannot be deleted by that name, and a path that leads through what was deleted
leads nowhere. -/
def restore (p : Path) (kept : Tree) (d : Disk) : Disk × Except Refusal Unit :=
  match d.locate p with
  | .error fault => (d, .error ⟨fault, p⟩)
  | .ok place =>
    let emptied := d.put place .empty
    if p.parts.isEmpty then (emptied, .error ⟨.invalidArgument, p⟩)
    else
      match emptied.locate p with
      | .error fault => (emptied, .error ⟨fault, p⟩)
      | .ok place => (emptied.put place kept, .ok ())

end Disk

end ClientGen
