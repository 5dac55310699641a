import ClientGen.Text.Integer
import ClientGen.Yaml.Timestamp

/-!
# The nodes of a YAML document

A node is a scalar, a sequence or a mapping with a tag, which tells its type. The nodes of a
document are numbered, and a node holds the numbers of others: aliases let a node stand in several
places, even inside itself. Nodes without a tag of their own get one: a plain scalar by the form of
its text, every other by its kind.
-/

namespace ClientGen.Yaml

/-- The type of a node. -/
inductive Tag where
  | null
  | bool
  | int
  | float
  | timestamp
  | binary
  | str
  | sequence
  | mapping
  | set
  /-- A sequence of mappings of one entry each. -/
  | pairs
  /-- A key whose value is merged into the mapping around it. -/
  | merge
  /-- A key that stands for the value of a mapping. -/
  | default
  /-- A type that has no values. -/
  | unknown
deriving DecidableEq, Repr

/-- What the names of the common tags begin with. -/
def commonTags : String := "tag:yaml.org,2002:"

/-- The tag of a name. -/
def Tag.ofName (name : String) : Tag :=
  match Text.afterPrefix? commonTags name with
  | some "null" => null
  | some "bool" => bool
  | some "int" => int
  | some "float" => float
  | some "timestamp" => timestamp
  | some "binary" => binary
  | some "str" => str
  | some "seq" => sequence
  | some "map" => mapping
  | some "set" => set
  | some "omap" => pairs
  | some "pairs" => pairs
  | some "merge" => merge
  | some "value" => default
  | _ => unknown

/-- What a node holds. -/
inductive Content where
  | scalar (text : String)
  | sequence (items : List Nat)
  | mapping (entries : List (Nat × Nat))
deriving Repr

/-- A node. -/
structure Node where
  tag : Tag
  content : Content
deriving Repr

/-- The nodes of a document by their numbers. -/
abbrev Graph := Array Node

/-! ## The types of plain scalars -/

/-- Words in small letters, with a capital first letter and in capitals. -/
def inThreeCases (words : List (String × String × String)) : List String :=
  words.flatMap fun (small, title, capitals) => [small, title, capitals]

/-- The words for truth values. -/
def boolWords : List String := inThreeCases [
  ("yes", "Yes", "YES"), ("no", "No", "NO"), ("true", "True", "TRUE"),
  ("false", "False", "FALSE"), ("on", "On", "ON"), ("off", "Off", "OFF")]

/-- The words for nothing. -/
def nullWords : List String := ["", "~", "null", "Null", "NULL"]

/-- Digits of a base with underscores among them. -/
def isDigitRun (base : Nat) (cs : List Char) : Bool :=
  !cs.isEmpty && cs.all fun c => c = '_' || (c.toNat < 128 && (Text.digitValue? base c).isSome)

/-- Digits with underscores among them, but not at the beginning. -/
def isNumberRun (cs : List Char) : Bool := cs.head?.any Char.isDigit && isDigitRun 10 cs

/-- Whether a text counts sixtieths: one digit, or two that begin with at most five. -/
def isSixtieth : List Char → Bool
  | [c] => c.isDigit
  | [c, d] => '0' ≤ c && c ≤ '5' && d.isDigit
  | _ => false

/-- Whether a text is an integer. -/
def isInteger (cs : List Char) : Bool :=
  match Text.dropSign cs with
  | ['0'] => true
  | '0' :: 'b' :: digits => isDigitRun 2 digits
  | '0' :: 'x' :: digits => isDigitRun 16 digits
  | '0' :: digits => isDigitRun 8 digits
  | digits =>
    match Text.splitWhere (· == ':') digits with
    | first :: sixtieths => isNumberRun first && sixtieths.all isSixtieth
    | [] => false

/-- Whether a text is empty or an exponent of ten, which needs a sign. -/
def isExponent : List Char → Bool
  | [] => true
  | e :: sign :: digits =>
    (e = 'e' || e = 'E') && (sign = '+' || sign = '-') && !digits.isEmpty
      && digits.all Char.isDigit
  | _ => false

/-- Whether a text is the part of a number behind its point. -/
def isFraction (cs : List Char) : Bool :=
  isExponent (cs.dropWhile fun c => c = '_' || c.isDigit)

/-- Whether the parts before and behind the point make a number in sixtieths. -/
def isSexagesimal (whole fraction : List Char) : Bool :=
  match Text.splitWhere (· == ':') whole with
  | first :: second :: sixtieths =>
    isNumberRun first && (second :: sixtieths).all isSixtieth
      && fraction.all fun c => c = '_' || c.isDigit
  | _ => false

/-- Whether a text is a number with a point. -/
def isDecimal (cs : List Char) : Bool :=
  let unsigned := Text.dropSign cs
  let whole := unsigned.takeWhile (· != '.')
  match unsigned.drop whole.length with
  | '.' :: fraction =>
    (isNumberRun whole && isFraction fraction)
      || (cs.head? = some '.' && fraction.head?.any Char.isDigit && isFraction fraction)
      || isSexagesimal whole fraction
      || (whole.isEmpty && ["inf", "Inf", "INF"].contains (String.ofList fraction))
      || (cs.head? = some '.' && ["nan", "NaN", "NAN"].contains (String.ofList fraction))
  | _ => false

/-- The texts that look like the signs of tags, anchors and aliases. No plain scalar has them. -/
def signs : List String := ["!", "&", "*"]

/-- The tag of a text that has the form of a scalar of some type. -/
def formTag (text : String) : Tag :=
  if boolWords.contains text then .bool
  else if isDecimal text.toList then .float
  else if isInteger text.toList then .int
  else if text = "<<" then .merge
  else if nullWords.contains text then .null
  else if Timestamp.isTimestamp text then .timestamp
  else if text = "=" then .default
  else if signs.contains text then .unknown
  else .str

/-- The tag of a plain scalar. A line end behind the text makes no difference, but it is no text on
its own. -/
def plainTag (text : String) : Tag :=
  if text = "\n" then .str else formTag (String.ofList (Text.dropLineEnd text.toList))

end ClientGen.Yaml
