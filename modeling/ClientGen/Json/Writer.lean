import ClientGen.Json.Literal
import ClientGen.Value.Display

/-!
# Writing JSON

Values on one line, with a space after each comma and colon. Keys that are numbers, truth values or
`null` become strings, and a pair is written as a list; other values outside the JSON types cannot
be written. The entries of mappings may be put in the order of their keys, which needs keys that can
be compared with one another. Of several causes why a value has no text the first one counts.

In indented JSON each item or entry has a line of its own, and each level is indented by two spaces.
What is empty stays on one line.
-/

namespace ClientGen.Json

/-- The text of a number with a fraction or exponent. The two words for the values that JSON lacks
are accepted by the reader again. -/
def decimalText (d : Decimal) : String := d.text "Infinity" "NaN"

/-- The text of an integer. -/
def integerText (n : Int) : Except Textless String :=
  if Value.isShort n then .ok (toString n) else .error .longInteger

/-- The text of a truth value. -/
def truthText (b : Bool) : String := if b then "true" else "false"

/-- The string that stands for a key. -/
def keyText : Key → Except Textless String
  | .null => .ok "null"
  | .bool b => .ok (truthText b)
  | .int n => integerText n
  | .float d => .ok (decimalText d)
  | .str s => .ok s
  | .other _ => .error .unsuitable

/-! ## Order of keys -/

/-- Whether a key is text. -/
def isTextKey : Key → Bool
  | .str _ => true
  | _ => false

/-- Whether a key counts as a number when keys are put in order. -/
def isNumberKey : Key → Bool
  | .bool _ | .int _ | .float _ => true
  | _ => false

/-- Whether a key is a number that comes neither before nor after any other one. -/
def isUndefinedKey : Key → Bool
  | .float (.undefined _) => true
  | _ => false

/-- Whether `a` comes before `b`. -/
def keyLT (a b : Key) : Bool :=
  match a, b with
  | .str s, .str t => Text.lt s t
  | .float (.undefined _), _ => false
  | _, .float (.undefined _) => false
  | .float (.infinite true), b => b != .float (.infinite true)
  | .float (.infinite false), _ => false
  | _, .float (.infinite negative) => !negative
  | a, b =>
    match a.fraction?, b.fraction? with
    | some (m, p), some (n, q) => m * q < n * p
    | _, _ => false

section

variable {α : Type}

/-- Items with one whose key is put before the first that it comes before, which is found by halving
the items between `low` and `high`. -/
def placeBetween (x : Key × α) (items : List (Key × α)) :
    (fuel low high : Nat) → List (Key × α)
  | 0, low, _ => items.take low ++ x :: items.drop low
  | fuel + 1, low, high =>
    if high ≤ low then items.take low ++ x :: items.drop low
    else
      let middle := low + (high - low) / 2
      if items[middle]?.any fun y => keyLT x.1 y.1 then placeBetween x items fuel low middle
      else placeBetween x items fuel (middle + 1) high

/-- The items up to the first that is not related to the one before it. -/
def runOf (related : Key → Key → Bool) : List (Key × α) → List (Key × α)
  | x :: y :: rest => if related x.1 y.1 then x :: runOf related (y :: rest) else [x]
  | items => items

/-- Items in the order of their keys, where some keys cannot be compared: what is in order at the
beginning stays, turned round if it descends, and the others are placed among it one by one. -/
def sortLoosely (items : List (Key × α)) : List (Key × α) :=
  let falling := runOf (fun a b => keyLT b a) items
  let start := if 1 < falling.length then falling else runOf (fun a b => !keyLT b a) items
  let ordered := if 1 < falling.length then start.reverse else start
  (items.drop start.length).foldl
    (fun sorted x => placeBetween x sorted (sorted.length + 1) 0 sorted.length) ordered

/-- Items in the order of their keys. -/
def sortByKey (items : List (Key × α)) : Except Textless (List (Key × α)) :=
  let keys := items.map (·.1)
  if keys.length ≤ 1 then .ok items
  else if !keys.all isTextKey && !keys.all isNumberKey then .error .unsuitable
  else if keys.any isUndefinedKey then .ok (sortLoosely items)
  else .ok (items.mergeSort fun a b => !keyLT b.1 a.1)

end

/-! ## Text -/

/-- Names of members with the texts of their values. -/
def memberTexts (members : List (Key × Except Textless String)) :
    Except Textless (List String) :=
  members.mapM fun m => do return quote (← keyText m.1) ++ ": " ++ (← m.2)

/-- The text of a list of items. -/
def listText (items : List (Except Textless String)) : Except Textless String := do
  return "[" ++ ", ".intercalate (← items.mapM id) ++ "]"

/-- The text of members, in the order of their keys if they are to be `sorted`. -/
def objectText (sorted : Bool) (members : List (Key × Except Textless String)) :
    Except Textless String := do
  let members ← if sorted then sortByKey members else pure members
  return "\x7b" ++ ", ".intercalate (← memberTexts members) ++ "\x7d"

mutual

/-- The text of a value on one line. -/
def write (sorted : Bool) : Value → Except Textless String
  | .null => .ok "null"
  | .bool b => .ok (truthText b)
  | .int n => integerText n
  | .float d => .ok (decimalText d)
  | .str s => .ok (quote s)
  | .list items => listText (writeItems sorted items)
  | .map entries => objectText sorted (writeMembers sorted entries)
  | .pair a b => listText [write sorted a, write sorted b]
  | .other _ => .error .unsuitable
  | .set _ => .error .unsuitable
  | .loop _ => .error .endless

/-- The texts of the items of a list. -/
def writeItems (sorted : Bool) : List Value → List (Except Textless String)
  | [] => []
  | v :: rest => write sorted v :: writeItems sorted rest

/-- The texts of the values of a mapping, by their keys. -/
def writeMembers (sorted : Bool) : List (Key × Value) → List (Key × Except Textless String)
  | [] => []
  | (k, v) :: rest => (k, write sorted v) :: writeMembers sorted rest

end

/-! ## Indented JSON -/

/-- Items on lines of their own between brackets, `level` levels deep. -/
def block (opening closing : String) (level : Nat) (items : List String) : String :=
  let pad (n : Nat) := "\n" ++ String.ofList (List.replicate (2 * n) ' ')
  if items.isEmpty then opening ++ closing
  else
    opening ++ ",".intercalate (items.map fun i => pad (level + 1) ++ i) ++ pad level ++ closing

mutual

/-- The text of a value that stands `level` levels deep. -/
def indented (level : Nat) : Value → Except Textless String
  | .list items => do
    return block "[" "]" level (← (indentedItems (level + 1) items).mapM id)
  | .map entries => do
    return block "\x7b" "\x7d" level (← memberTexts (indentedMembers (level + 1) entries))
  | .pair a b => do
    return block "[" "]" level [← indented (level + 1) a, ← indented (level + 1) b]
  | v => write false v

/-- The texts of the items of a list. -/
def indentedItems (level : Nat) : List Value → List (Except Textless String)
  | [] => []
  | v :: rest => indented level v :: indentedItems level rest

/-- The texts of the values of a mapping, by their keys. -/
def indentedMembers (level : Nat) : List (Key × Value) → List (Key × Except Textless String)
  | [] => []
  | (k, v) :: rest => (k, indented level v) :: indentedMembers level rest

end

/-- The text of a document: a value and a line end. -/
def document (v : Value) : Except Textless String := do return (← indented 0 v) ++ "\n"

/-- A mapping with text keys. -/
def object (members : List (String × Value)) : Value :=
  .map (members.map fun m => (.str m.1, m.2))

/-- A list of texts. -/
def strings (items : List String) : Value := .list (items.map .str)

end ClientGen.Json
