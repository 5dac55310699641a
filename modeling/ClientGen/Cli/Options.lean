import ClientGen.Cli.Flag
import ClientGen.Text.Integer

/-!
# Options of a run

The options that a command line gives. Flags take effect one after the other, so the first fault
counts and the last value of a flag.
-/

namespace ClientGen.Cli

/-- The options of a run. -/
structure Options where
  input : Path
  output : Path
  languages : List String
  package : Bool
  packageName : Option String
  scope : Option String
  esm : Bool
  naming : Name.Convention
  maxLineWidth : Int
  verbose : Bool
deriving DecidableEq, Repr

/-- Options that are not complete yet. -/
structure Draft where
  input : Option Path := none
  output : Option Path := none
  languages : List String := ["typescript"]
  package : Bool := false
  packageName : Option String := none
  scope : Option String := none
  esm : Bool := false
  naming : Name.Convention := .kebab
  maxLineWidth : Int := 80
  verbose : Bool := false

namespace Draft

/-- Languages between commas; blank space and empty ones are dropped. -/
def languagesOf (value : String) : Except Complaint (List String) :=
  let names := ((Text.splitAt ',' value).map Text.trim).filter (!·.isEmpty)
  if names.isEmpty then .error .noLanguage else .ok names

/-- A line width. -/
def widthOf (value : String) : Except Complaint Int :=
  match Text.excess? 10 value, Text.integer? 10 value with
  | none, some n => .ok n
  | _, _ => .error (.notInteger value)

/-- A naming convention. -/
def namingOf (value : String) : Except Complaint Name.Convention :=
  match Name.Convention.ofLabel? value with
  | some c => .ok c
  | none => .error (.badNaming value)

/-- A draft with the value of a flag. -/
def setValue (d : Draft) (f : Flag) (value : String) : Except Complaint Draft :=
  match f with
  | .input => .ok { d with input := some (.ofString value) }
  | .output => .ok { d with output := some (.ofString value) }
  | .languages => do return { d with languages := ← languagesOf value }
  | .packageName => .ok { d with packageName := some value }
  | .scope => .ok { d with scope := some value }
  | .naming => do return { d with naming := ← namingOf value }
  | .maxLineWidth => do return { d with maxLineWidth := ← widthOf value }
  | _ => .ok d

/-- A draft with a flag that has no value. -/
def setFlag (d : Draft) (f : Flag) : Except Stop Draft :=
  match f with
  | .help => .error .help
  | .package => .ok { d with package := true }
  | .esm => .ok { d with esm := true }
  | .verbose => .ok { d with verbose := true }
  | _ => .ok d

/-- A draft with several flags that have no value. -/
def setFlags (d : Draft) : List Flag → Except Stop Draft
  | [] => .ok d
  | f :: rest => do setFlags (← d.setFlag f) rest

/-- The titles of the flags that are still needed. -/
def missing (d : Draft) : List String :=
  (if d.input.isNone then [Flag.input.title] else [])
    ++ if d.output.isNone then [Flag.output.title] else []

/-- The options of a draft that is complete. -/
def finish (d : Draft) : Except Complaint Options :=
  match d.input, d.output with
  | some input, some output => .ok {
      input, output, languages := d.languages, package := d.package
      packageName := d.packageName, scope := d.scope, esm := d.esm, naming := d.naming
      maxLineWidth := d.maxLineWidth, verbose := d.verbose }
  | _, _ => .error (.missing d.missing)

end Draft

/-- A complaint of the command that generates a client. -/
def inCommand {α : Type} (e : Except Complaint α) : Except Stop α := e.mapError .command

/-- Reads the words of the command that generates a client. Gives the words that it has no use for
as well. -/
def readWords (d : Draft) : List Word → Except Stop (Draft × List String)
  | [] => .ok (d, [])
  | .flag f isLong value :: rest => do
    let c ← inCommand (clusterOf Flag.all f isLong value)
    match c.last.takesValue, c.value, rest with
    | false, _, rest => readWords (← d.setFlags (c.plain ++ [c.last])) rest
    | true, some v, rest =>
      let d ← d.setFlags c.plain
      readWords (← inCommand (d.setValue c.last v)) rest
    | true, none, .argument v :: rest =>
      let d ← d.setFlags c.plain
      readWords (← inCommand (d.setValue c.last v)) rest
    | true, none, _ => throw (.command (.valueMissing c.last))
  | .argument text :: rest => do
    let (d, others) ← readWords d rest
    return (d, text :: others)
  | .marker :: rest => do
    let (d, others) ← readWords d rest
    return (d, "--" :: others)
  | .unknown text :: rest => do
    let (d, others) ← readWords d rest
    return (d, text :: others)

/-- Reads the arguments of the command that generates a client. -/
def readCommand (args : List String) : Except Stop (Options × List String) := do
  let words ← inCommand (wordsOf Flag.all args)
  let (d, others) ← readWords {} words
  let options ← inCommand d.finish
  return (options, others)

/-- Reads the words before the command, and the command itself. Gives the words that the program has
no use for as well. -/
def readProgram : (words : List Word) → (args : List String) →
    Except Stop (Options × List String)
  | .flag f isLong value :: _, _ =>
    match clusterOf [.help] f isLong value with
    | .error complaint => .error (.program complaint)
    | .ok _ => .error .help
  | .unknown text :: words, args => do
    let (options, others) ← readProgram words args.tail
    return (options, text :: others)
  | .argument text :: _, args =>
    if text = generateCommand then readCommand args.tail
    else .error (.program (.badCommand text))
  | .marker :: [], _ => .error (.program (.missing ["command"]))
  | .marker :: _, _ => .error (.program (.badCommand "--"))
  | [], _ => .error (.program (.missing ["command"]))

/-- The options that the arguments of the program give. -/
def optionsOf (args : List String) : Except Stop Options := do
  let words ← (wordsOf [.help] args).mapError .program
  let (options, others) ← readProgram words args
  if !others.isEmpty then throw (.program (.unrecognized others))
  if options.maxLineWidth ≤ 0 then throw (.command (.badWidth options.maxLineWidth))
  return options

/-- The text that tells why arguments were refused; there is none where help was asked for. -/
def Stop.line? : Stop → Option String
  | help => none
  | program complaint => some s!"{programName}: error: {complaint.message}"
  | command complaint => some s!"{programName} {generateCommand}: error: {complaint.message}"

/-- The last line of what is told of refused arguments, which may themselves hold line ends. Blank
space at the end is not told. -/
def Stop.lastLine? (s : Stop) : Option String :=
  s.line?.bind fun line => (Text.lines (Text.trimEnd line)).getLast?

/-- The exit code where arguments were refused or help was asked for. -/
def Stop.exitCode : Stop → Nat
  | help => 0
  | _ => 2

end ClientGen.Cli
