import ClientGen.Cli.Options
import ClientGen.Generator.Run

/-!
# The command line

A run of the program on a disk: its arguments, what it prints, its exit code and the disk after it.
An output directory that held something is put back when generation fails.
-/

namespace ClientGen.Cli

/-- What a run of the program leaves behind. -/
structure Outcome where
  exitCode : Nat
  stdout : String := ""
  stderr : String := ""
  disk : Disk

/-! ## Keeping the output directory -/

/-- What was kept of an output directory that generation failed in, if it held something. -/
inductive Recovery where
  | none
  | restored
  | failed (refusal : Refusal)
deriving DecidableEq, Repr

/-- Puts back what was kept of an output directory. -/
def recover (output : Path) (kept : Option Tree) (disk : Disk) : Disk × Recovery :=
  match kept with
  | none => (disk, .none)
  | some tree =>
    match disk.restore output tree with
    | (disk, .ok _) => (disk, .restored)
    | (disk, .error refusal) => (disk, .failed refusal)

/-- The failure that a run ends with, after what was kept was put back or not. -/
def Recovery.failure (output : Path) (first : Failure) : Recovery → Failure
  | failed refusal => .unrestorable output.toString refusal.fault refusal.path.toString
  | _ => first

/-- Whether a run tells that it puts back what was kept. -/
def Recovery.isTold : Recovery → Bool
  | none => false
  | _ => true

/-! ## Messages -/

/-- The line of a warning. -/
def warningLine (w : Warning) : String := s!"WARNING {w.channel}: {w.message}\n"

/-- The line before what was kept is put back. -/
def recoveryLine : String := "Error: Generation failed. Restoring original content.\n"

/-- The line of a failure. -/
def failureLine (f : Failure) : String := s!"Error: {f.describe}\n"

/-- The line at the end of a run. -/
def successLine (output : Path) : String := s!"Client generated successfully in {output}\n"

/-- The paths of files in ascending order, name by name. -/
def sortedPaths (texts : PathTexts) : List Path := (texts.map (·.1)).mergeSort Path.le

/-- The list of the files of a run. -/
def fileList (texts : PathTexts) : String :=
  s!"Generated {texts.length} files:\n"
    ++ String.join ((sortedPaths texts).map fun p => s!"  {p}\n") ++ "\n"

/-! ## The run -/

/-- The settings that options give. -/
def settingsOf (o : Options) : Except Failure Settings := do
  return {
    files := ← FileSettings.make o.naming o.maxLineWidth
    package := { enabled := o.package, name := o.packageName, scope := o.scope, esm := o.esm } }

/-- What a run that fails at once leaves behind. -/
def failed (failure : Failure) (disk : Disk) : Outcome :=
  { exitCode := failure.exitCode, stderr := failureLine failure, disk }

/-- Generates a client, and puts back what was kept of the output directory if that fails. -/
def generateWith (o : Options) (settings : Settings) (kept : Option Tree) (disk : Disk) :
    Outcome :=
  let (written, report) := ({ settings } : Generator).run o.input o.output o.languages disk
  let warnings := String.join (report.notes.map warningLine)
  match report.result with
  | .ok texts => {
      exitCode := 0
      stdout := (if o.verbose then fileList texts else "") ++ successLine o.output
      stderr := warnings
      disk := written }
  | .error first =>
    let (disk, recovery) := recover o.output kept written
    let failure := recovery.failure o.output first
    { exitCode := failure.exitCode
      stderr := warnings ++ (if recovery.isTold then recoveryLine else "") ++ failureLine failure
      disk }

/-- Generates a client as options say. -/
def generate (o : Options) (disk : Disk) : Outcome :=
  match settingsOf o, disk.filled? o.output with
  | .error failure, _ => failed failure disk
  | .ok _, .error fault => failed (.unkept o.output.toString fault) disk
  | .ok settings, .ok kept => generateWith o settings kept disk

/-- Runs the program with arguments. -/
def run (args : List String) (disk : Disk) : Outcome :=
  match optionsOf args with
  | .ok options => generate options disk
  | .error stop => {
      exitCode := stop.exitCode
      stderr := (stop.lastLine?.map (· ++ "\n")).getD ""
      disk }

end ClientGen.Cli
