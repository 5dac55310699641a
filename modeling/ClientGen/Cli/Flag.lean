import ClientGen.Config
import ClientGen.Files.Path
import ClientGen.Value.Display

/-!
# Flags of the command line

The flags that a command knows, how they are spelt, and why arguments are refused. A long flag may
be cut short as long as it is clear which one is meant, and its value may follow an equals sign.
Short flags may be written together, and the value of one may follow at once.
-/

namespace ClientGen.Cli

/-- A flag. -/
inductive Flag where
  | help
  | input
  | output
  | languages
  | package
  | packageName
  | scope
  | esm
  | naming
  | maxLineWidth
  | verbose
deriving DecidableEq, Repr

namespace Flag

/-- The spellings of a flag. -/
def spellings : Flag → List String
  | help => ["-h", "--help"]
  | input => ["--input", "-i"]
  | output => ["--output", "-o"]
  | languages => ["--languages", "-l"]
  | package => ["--package"]
  | packageName => ["--package-name"]
  | scope => ["--scope"]
  | esm => ["--esm"]
  | naming => ["--naming"]
  | maxLineWidth => ["--max-line-width"]
  | verbose => ["--verbose", "-v"]

/-- Whether a flag has a value. -/
def takesValue : Flag → Bool
  | help => false
  | package => false
  | esm => false
  | verbose => false
  | _ => true

/-- The name of a flag in messages. -/
def title (f : Flag) : String := "/".intercalate f.spellings

/-- The flags of the command that generates a client. -/
def all : List Flag := [
  help, input, output, languages, package, packageName, scope, esm, naming, maxLineWidth, verbose]

end Flag

/-- The name of the program. -/
def programName : String := "oas-generator"

/-- The command that generates a client. -/
def generateCommand : String := "generate"

/-- Why arguments are refused. -/
inductive Complaint where
  | ambiguous (word : String) (spellings : List String)
  | valueMissing (flag : Flag)
  | valueIgnored (flag : Flag) (value : String)
  | noLanguage
  | notInteger (value : String)
  | badNaming (value : String)
  | badCommand (value : String)
  | missing (titles : List String)
  | unrecognized (words : List String)
  | badWidth (width : Int)
deriving DecidableEq, Repr

/-- A message about a flag. -/
def aboutFlag (f : Flag) (message : String) : String := s!"argument {f.title}: {message}"

/-- A refused choice, with what may be chosen. -/
def refusedChoice (value : String) (choices : List String) : String :=
  s!"invalid choice: {Value.quoted value} (choose from "
    ++ ", ".intercalate (choices.map Value.quoted) ++ ")"

/-- The text of a complaint. -/
def Complaint.message : Complaint → String
  | ambiguous word spellings =>
    s!"ambiguous option: {word} could match " ++ ", ".intercalate spellings
  | valueMissing flag => aboutFlag flag "expected one argument"
  | valueIgnored flag value => aboutFlag flag s!"ignored explicit argument {Value.quoted value}"
  | noLanguage => aboutFlag .languages "at least one language is required"
  | notInteger value => aboutFlag .maxLineWidth s!"invalid int value: {Value.quoted value}"
  | badNaming value => aboutFlag .naming (refusedChoice value (Name.Convention.all.map (·.label)))
  | badCommand value => "argument command: " ++ refusedChoice value [generateCommand]
  | missing titles => "the following arguments are required: " ++ ", ".intercalate titles
  | unrecognized words => "unrecognized arguments: " ++ " ".intercalate words
  | badWidth width => s!"--max-line-width must be positive, got {width}"

/-- What ends the reading of arguments early. -/
inductive Stop where
  | help
  /-- A complaint of the program itself. -/
  | program (complaint : Complaint)
  /-- A complaint of the command that generates a client. -/
  | command (complaint : Complaint)
deriving DecidableEq, Repr

/-! ## Words -/

/-- What a word on the command line is. -/
inductive Word where
  | argument (text : String)
  /-- The two dashes behind which every word is an argument. -/
  | marker
  /-- A flag as spelt, with what the word holds behind it. -/
  | flag (flag : Flag) (isLong : Bool) (value : Option String)
  /-- A word that looks like a flag but is none. -/
  | unknown (text : String)
deriving DecidableEq, Repr

/-- The spellings of flags. -/
def spellingsOf (flags : List Flag) : List (String × Flag) :=
  flags.flatMap fun f => f.spellings.map fun s => (s, f)

/-- The flag of a spelling. -/
def flagOf? (flags : List Flag) (spelling : String) : Option Flag :=
  (spellingsOf flags).lookup spelling

/-- Whether a spelling is a long one. -/
def isLong (spelling : String) : Bool := Text.startsWith "--" spelling

/-- The text before the first equals sign, and the value behind it. -/
def splitValue (s : String) : String × Option String :=
  let cs := s.toList
  let before := cs.takeWhile (· != '=')
  match cs.drop before.length with
  | _ :: value => (String.ofList before, some (String.ofList value))
  | [] => (s, none)

/-- Whether a word looks like a negative number. A line end may follow it. -/
def isNegativeNumber (s : String) : Bool :=
  match Text.dropLineEnd s.toList with
  | '-' :: rest =>
    let isDigit (c : Char) := (Text.decimalValue? c).isSome
    match rest.dropWhile isDigit with
    | [] => !rest.isEmpty
    | '.' :: fraction => !fraction.isEmpty && fraction.all isDigit
    | _ => false
  | _ => false

/-- The flags that a word may stand for, each with its spelling and the value in the word. -/
def candidates (flags : List Flag) (s : String) : List (String × Flag × Option String) :=
  if isLong s then
    let (start, value) := splitValue s
    ((spellingsOf flags).filter fun p => Text.startsWith start p.1).map fun p => (p.1, p.2, value)
  else
    let short := String.ofList (s.toList.take 2)
    let rest := String.ofList (s.toList.drop 2)
    (spellingsOf flags).filterMap fun p =>
      if p.1 = short then some (p.1, p.2, some rest)
      else if Text.startsWith s p.1 then some (p.1, p.2, none)
      else none

/-- What a word is that is no marker. -/
def wordOf (flags : List Flag) (s : String) : Except Complaint Word :=
  if !Text.startsWith "-" s then .ok (.argument s)
  else
    match flagOf? flags s with
    | some f => .ok (.flag f (isLong s) none)
    | none =>
      if s = "-" then .ok (.argument s)
      else
        let (start, value) := splitValue s
        match if value.isNone then none else flagOf? flags start with
        | some f => .ok (.flag f (isLong start) value)
        | none =>
          match candidates flags s with
          | [(spelling, f, value)] => .ok (.flag f (isLong spelling) value)
          | [] =>
            if isNegativeNumber s || s.toList.contains ' ' then .ok (.argument s)
            else .ok (.unknown s)
          | many => .error (.ambiguous s (many.map (·.1)))

/-- What the words of a command line are. -/
def wordsOf (flags : List Flag) : List String → Except Complaint (List Word)
  | [] => .ok []
  | s :: rest =>
    if s = "--" then .ok (.marker :: rest.map .argument)
    else do
      let w ← wordOf flags s
      return w :: (← wordsOf flags rest)

/-- What a word of flags gives: flags without a value, and the last flag with its value, if the word
holds one. -/
structure Cluster where
  plain : List Flag := []
  last : Flag
  value : Option String := none

/-- A cluster with a flag before it. -/
def Cluster.after (f : Flag) (c : Cluster) : Cluster := { c with plain := f :: c.plain }

/-- The flags that are written together, from a flag and the characters behind it. These are the
value of a flag that takes one; behind any other flag each of them has to spell a flag. -/
def cluster (flags : List Flag) (f : Flag) : List Char → Except Complaint Cluster
  | [] => if f.takesValue then .ok { last := f, value := some "" } else .error (.valueIgnored f "")
  | c :: rest =>
    if f.takesValue then .ok { last := f, value := some (String.ofList (c :: rest)) }
    else
      match flagOf? flags (String.ofList ['-', c]), rest with
      | none, _ => .error (.valueIgnored f (String.ofList (c :: rest)))
      | some g, [] => .ok { plain := [f], last := g }
      | some g, d :: rest => (Cluster.after f) <$> cluster flags g (d :: rest)

/-- The flags that a word gives. -/
def clusterOf (flags : List Flag) (f : Flag) (isLong : Bool) : Option String →
    Except Complaint Cluster
  | none => .ok { last := f }
  | some value =>
    if !isLong then cluster flags f value.toList
    else if f.takesValue then .ok { last := f, value := some value }
    else .error (.valueIgnored f value)

end ClientGen.Cli
