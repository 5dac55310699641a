import ClientGen.Text.Blank

/-!
# Words of a name

Names come from documents in every spelling. A name is cut into words of ASCII letters and digits:
at every other character, where a small letter or digit meets a capital, and before the last
capital of a run that a small letter follows. The usual spellings are put together from the words.
-/

namespace ClientGen.Name

/-- Whether a word ends between the neighbours `c` and `d`, with `rest` after them. -/
def humpBetween (c d : Char) (rest : List Char) : Bool :=
  (c.isUpper && d.isUpper && rest.head?.any Char.isLower)
    || ((c.isLower || c.isDigit) && d.isUpper)

/-- Writes an underscore wherever a word ends between two letters. -/
def markHumps : List Char → List Char
  | c :: d :: rest =>
    if humpBetween c d rest then c :: '_' :: markHumps (d :: rest) else c :: markHumps (d :: rest)
  | cs => cs

/-- The words of a name in small letters. -/
def words (cs : List Char) : List (List Char) :=
  (((Text.splitWhere (fun c => !c.isAlphanum) (markHumps cs)).filter (!·.isEmpty)).map
    (·.map Char.toLower))

/-- A word with a capital first letter. -/
def capitalize : List Char → List Char
  | [] => []
  | c :: rest => c.toUpper :: rest

/-- Words with `sep` between neighbours. -/
def joinWords (sep : Char) (ws : List (List Char)) : String :=
  String.ofList (Text.joinChars [sep] ws)

/-- `pet_status` -/
def snake (s : String) : String := joinWords '_' (words s.toList)

/-- `pet-status` -/
def kebab (s : String) : String := joinWords '-' (words s.toList)

/-- `PET_STATUS` -/
def constant (s : String) : String := joinWords '_' ((words s.toList).map (·.map Char.toUpper))

/-- `PetStatus` -/
def pascal (s : String) : String := String.ofList ((words s.toList).flatMap capitalize)

/-- `petStatus` -/
def camel (s : String) : String :=
  match words s.toList with
  | [] => ""
  | first :: rest => String.ofList (first ++ rest.flatMap capitalize)

/-- How the base names of model files are spelled. -/
inductive Convention where
  | camel
  | kebab
  | snake
  | pascal
deriving DecidableEq, Repr

/-- A name in the spelling of a convention. -/
def Convention.apply : Convention → String → String
  | .camel => Name.camel
  | .kebab => Name.kebab
  | .snake => Name.snake
  | .pascal => Name.pascal

/-- The word that selects a convention. -/
def Convention.label : Convention → String
  | .camel => "camel"
  | .kebab => "kebab"
  | .snake => "snake"
  | .pascal => "pascal"

/-- All conventions. -/
def Convention.all : List Convention := [.camel, .kebab, .snake, .pascal]

/-- The convention that a word selects. -/
def Convention.ofLabel? (s : String) : Option Convention := Convention.all.find? (·.label == s)

end ClientGen.Name
