import ClientGen.Text.Integer
import ClientGen.Value.Timestamp
import ClientGen.Yaml.Fault

/-!
# Dates and times in YAML

How a date is written, or a date with a time of day, a fraction of a second and an offset from
universal time. Every part has to be in its range.
-/

namespace ClientGen.Yaml.Timestamp

/-! ## Reading -/

/-- Reads at least `least` and at most `most` digits. -/
def digits? (least most : Nat) (cs : List Char) : Option (Nat × List Char) :=
  let ds := (cs.take most).takeWhile Char.isDigit
  if ds.length < least then none
  else (Text.readDigits 10 0 ds).map fun n => (n, cs.drop ds.length)

/-- Reads a character. -/
def expect? (c : Char) : List Char → Option (List Char)
  | d :: rest => if d = c then some rest else none
  | [] => none

/-- The digits of a fraction as microseconds; digits beyond these are cut. -/
def microseconds (ds : List Char) : Nat :=
  let kept := ds.take 6
  (Text.readDigits 10 0 kept).getD 0 * Nat.pow 10 (6 - kept.length)

/-- Reads the fraction of a second, if there is one. -/
def fraction (cs : List Char) : Nat × List Char :=
  match cs with
  | '.' :: rest =>
    let ds := rest.takeWhile Char.isDigit
    (microseconds ds, rest.drop ds.length)
  | _ => (0, cs)

/-- Reads an offset, behind its sign, to the end of the text. -/
def offset? (cs : List Char) : Option Offset := do
  let (hours, rest) ← digits? 1 2 cs
  match rest with
  | [] => return (60 * hours : Nat)
  | ':' :: rest =>
    let (minutes, rest) ← digits? 2 2 rest
    if rest.isEmpty then return (60 * hours + minutes : Nat) else none
  | _ => none

/-- Reads the offset that ends a text, if there is one. -/
def ending? (cs : List Char) : Option (Option Offset) :=
  match cs.dropWhile fun c => c = ' ' || c = '\t' with
  | [] => if cs.isEmpty then some none else none
  | ['Z'] => some (some 0)
  | '+' :: rest => (offset? rest).map some
  | '-' :: rest => (offset? rest).map fun n => some (-n)
  | _ => none

/-- Reads a time of day to the end of the text. -/
def time? (cs : List Char) : Option DayTime := do
  let (hour, cs) ← digits? 1 2 cs
  let (minute, cs) ← digits? 2 2 (← expect? ':' cs)
  let (second, cs) ← digits? 2 2 (← expect? ':' cs)
  let (microsecond, cs) := fraction cs
  return { hour, minute, second, microsecond, offset := ← ending? cs }

/-- What separates a time of day from a date: a letter, or gaps. -/
def separated? (cs : List Char) : Option (List Char) :=
  match cs with
  | c :: rest =>
    if c = 'T' || c = 't' then some rest
    else if c = ' ' || c = '\t' then some (rest.dropWhile fun d => d = ' ' || d = '\t')
    else none
  | [] => none

/-- The date and time that characters give. -/
def ofChars? (cs : List Char) : Option Timestamp := do
  let (year, cs) ← digits? 4 4 cs
  let (month, cs) ← digits? 1 2 (← expect? '-' cs)
  let (day, cs) ← digits? 1 2 (← expect? '-' cs)
  if cs.isEmpty then return { year, month, day, time := none }
  else return { year, month, day, time := some (← time? (← separated? cs)) }

/-- The date and time that a text gives. A line end may follow it. -/
def ofText? (text : String) : Option Timestamp := ofChars? (Text.dropLineEnd text.toList)

/-- Whether a plain scalar is a date or a time: a date alone has two digits for month and day. -/
def isTimestamp (text : String) : Bool :=
  match ofChars? text.toList with
  | some t => t.time.isSome || text.length = 10
  | none => false

/-! ## Ranges -/

/-- Reports the first part that is out of its range. -/
def check (t : Timestamp) : Except ScalarFault Unit := do
  if let some offset := t.time.bind (·.offset) then
    if offset.natAbs ≥ 1440 then throw (.offsetRange (ClientGen.Timestamp.spanText offset))
  if t.year = 0 then throw (.yearRange t.year)
  if t.month = 0 ∨ 12 < t.month then throw .monthRange
  if t.day = 0 ∨ ClientGen.Timestamp.daysIn t.year t.month < t.day then throw .dayRange
  if let some time := t.time then
    if 23 < time.hour then throw .hourRange
    if 59 < time.minute then throw .minuteRange
    if 59 < time.second then throw .secondRange

end ClientGen.Yaml.Timestamp
