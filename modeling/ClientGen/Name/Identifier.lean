import ClientGen.Json.Literal
import ClientGen.Name.Words
import ClientGen.Value.Display

/-!
# TypeScript identifiers

Names of types, values, enum members and properties of the generated client. A converted name that
would begin with a digit gets a leading underscore, one without any word gets a stand-in, and a
value whose name is reserved gets a trailing underscore.
-/

namespace ClientGen.Name

/-- Words that cannot name a value. -/
def reservedWords : List String := [
  "break", "case", "catch", "class", "const", "continue", "debugger", "default", "delete", "do",
  "else", "enum", "export", "extends", "false", "finally", "for", "function", "if", "import", "in",
  "instanceof", "new", "null", "return", "super", "switch", "this", "throw", "true", "try",
  "typeof", "var", "void", "while", "with", "implements", "interface", "let", "package", "private",
  "protected", "public", "static", "yield", "await"]

/-- Puts an underscore before a leading digit. -/
def guardDigit (s : String) : String :=
  if s.toList.head?.any Char.isDigit then "_" ++ s else s

/-- The name of a type. -/
def typeName (s : String) : String :=
  let name := pascal s
  if name.isEmpty then "Unnamed" else guardDigit name

/-- The name of a parameter. -/
def valueName (s : String) : String :=
  let name := camel s
  if name.isEmpty then "param"
  else
    let name := guardDigit name
    if reservedWords.contains name then name ++ "_" else name

/-- The name of the enum member for text. -/
def memberName (s : String) : String :=
  let name := pascal s
  if name.isEmpty then "Empty" else guardDigit name

/-- The text that names the enum member of a value. -/
def memberText : Value → Except Textless String
  | .bool b => .ok (if b then "true" else "false")
  | v => v.shown

/-- Whether a character may begin an identifier. -/
def isIdentifierStart (c : Char) : Bool := c.isAlpha || c = '_' || c = '$'

/-- Whether a character may continue an identifier. -/
def isIdentifierRest (c : Char) : Bool := c.isAlphanum || c = '_' || c = '$'

/-- Text without the one line feed that may end it. -/
def dropFinalBreak (cs : List Char) : List Char :=
  if cs.getLast? == some '\n' then cs.dropLast else cs

/-- Whether a property of this name needs no quotes. A line feed at the end is not looked at. -/
def isPlainKey (s : String) : Bool :=
  match dropFinalBreak s.toList with
  | [] => false
  | c :: rest => isIdentifierStart c && rest.all isIdentifierRest

/-- A property name as it is written before a colon. -/
def propertyKey (s : String) : String := if isPlainKey s then s else Json.quote s

/-! ## Distinct names -/

/-- The first of `base`, `base2`, `base3`, … that satisfies `free`, tried `fuel` times from
`suffix`. -/
def firstNumbered (free : String → Bool) (base : String) : (fuel suffix : Nat) → String
  | 0, suffix => base ++ toString suffix
  | fuel + 1, suffix =>
    let candidate := base ++ toString suffix
    if free candidate then candidate else firstNumbered free base fuel (suffix + 1)

/-- `base`, or else `base` with the first number from two on, that is none of `taken`. -/
def distinctFrom (taken : List String) (base : String) : String :=
  if taken.contains base then
    firstNumbered (fun s => !taken.contains s) base taken.length 2
  else base

end ClientGen.Name
