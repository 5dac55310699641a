import ClientGen.Cli.Run

/-!
# The program

What a run may look at is copied into a disk: what is at the input path and at the output path, and
the directories that lead there. The run itself is `Cli.run`. What it changed on the disk is then
changed on the file system.
-/

namespace ClientGen.Cli

/-! ## Copying files into a disk -/

/-- Copies what is at a path: a file, or a directory without its entries. -/
def copyShallow (p : Path) (disk : Disk) : IO Disk := do
  let here := (← IO.currentDir) / p.toString
  if ← here.isDir then
    return (disk.ensureDirectory p).1
  else if ← here.pathExists then
    let bytes ← IO.FS.readBinFile here
    return (disk.writeBytes p bytes.toList).toOption.getD disk
  else
    return disk

/-- Copies what is at a path, with all that a directory holds. -/
partial def copyDeep (p : Path) (disk : Disk) : IO Disk := do
  let here := (← IO.currentDir) / p.toString
  let mut disk ← copyShallow p disk
  if ← here.isDir then
    for entry in ← here.readDir do
      disk ← copyDeep { p with parts := p.parts ++ [entry.fileName] } disk
  return disk

/-- Copies the directories that lead to a path. -/
def copyAlong (p : Path) (disk : Disk) : IO Disk :=
  let leading := (List.range p.parts.length).map p.parts.take
  leading.foldlM (fun disk parts => copyShallow { p with parts } disk) disk

/-- The disk that a run with options begins with. -/
def diskFor (o : Options) : IO Disk := do
  let home := (Path.ofString (← IO.currentDir).toString).parts
  let disk : Disk := { root := Tree.put home .empty .empty, home }
  copyAlong o.output (← copyAlong o.input disk) >>= copyShallow o.input >>= copyDeep o.output

/-! ## Changing files -/

/-- The names under which a tree holds something. -/
def entryNames : Option Tree → List String
  | some (.directory es) => es.map (·.1)
  | _ => []

/-- Removes what is at a place. -/
def remove (place : String) : Tree → IO Unit
  | .file _ => IO.FS.removeFile place
  | .directory _ => IO.FS.removeDirAll place

/-- Changes what is at a place from one tree to another. -/
partial def change (place : String) (before after : Option Tree) : IO Unit := do
  match before, after with
  | some t, none => remove place t
  | none, none => return
  | _, some (.file bytes) =>
    if let some (.file known) := before then
      if known == bytes then return
    IO.FS.writeBinFile place (ByteArray.mk bytes.toArray)
  | _, some (.directory es) =>
    if before.isNone then IO.FS.createDir place
    let gone := (entryNames before).filter fun name => (es.lookup name).isNone
    for name in es.map (·.1) ++ gone do
      change (place ++ "/" ++ name) (before.bind (·.child? name)) (es.lookup name)

/-! ## The entry point -/

/-- Runs the program on the file system and gives its exit code. -/
def program (args : List String) : IO UInt32 := do
  let disk : Disk ← match optionsOf args with
    | .ok o => diskFor o
    | .error _ => pure { root := .empty }
  let outcome := run args disk
  change "" (some disk.root) (some outcome.disk.root)
  IO.print outcome.stdout
  IO.eprint outcome.stderr
  return outcome.exitCode.toUInt32

end ClientGen.Cli

/-- Runs the program. -/
def main (args : List String) : IO UInt32 := ClientGen.Cli.program args
