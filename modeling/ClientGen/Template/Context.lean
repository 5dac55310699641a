import ClientGen.Report.Failure
import ClientGen.Value.Display

/-!
# Data for templates

A template is filled with named values. What it asks for has to be there: a value that is missing
may be passed on, but every use of it is a fault that tells what was missing. A value of the wrong
kind cannot be used either.
-/

namespace ClientGen.Template

/-- Why a template cannot be filled. -/
inductive Fault where
  /-- Something that is missing was used. -/
  | missing (reason : String)
  /-- A value is used in a way that its kind does not allow. -/
  | unusable
  /-- A value has no text. -/
  | textless (cause : Textless)
deriving DecidableEq, Repr

/-- Named values. -/
abbrev Context := Entries

/-- What a template asked for: a value, or why there is none. -/
inductive Slot where
  | value (v : Value)
  | missing (reason : String)
deriving Repr

/-- A step of filling a template. -/
abbrev Filling := Except Fault

/-- The word for the kind of a value. -/
def kindOf : Value → String
  | .null => "None"
  | .bool _ => "bool object"
  | .int _ => "int object"
  | .float _ => "float object"
  | .str _ => "str object"
  | .other (.moment _) => "object"
  | .other (.bytes _) => "bytes object"
  | .list _ => "list object"
  | .map _ => "dict object"
  | .pair _ _ => "tuple object"
  | .set _ => "set object"
  | .loop .map => "dict object"
  | .loop .list => "list object"
  | .loop .pair => "tuple object"

/-- The slot of a name. -/
def Context.slot (c : Context) (name : String) : Slot :=
  match Entries.find? name c with
  | some v => .value v
  | none => .missing s!"'{name}' is undefined"

/-- Makes sure that a function of the templates is not hidden by a value of its name. -/
def Context.uses (c : Context) (function : String) : Filling Unit :=
  if Entries.has function c then .error .unusable else .ok ()

namespace Slot

/-- The value, which is used now. -/
def get : Slot → Filling Value
  | value v => .ok v
  | missing reason => .error (.missing reason)

/-- A part of a value. -/
def part (name : String) (s : Slot) : Filling Slot := do
  match ← s.get with
  | .map es =>
    match Entries.find? name es with
    | some v => return value v
    | none => return missing s!"'{kindOf (.map es)}' has no attribute '{name}'"
  | v => return missing s!"'{kindOf v}' has no attribute '{name}'"

/-- The items that a value lists. -/
def items (s : Slot) : Filling (List Value) := do
  match (← s.get).listed? with
  | some items => return items
  | none => throw .unusable

/-- The first item that a value lists by position. -/
def first (s : Slot) : Filling Slot := do
  let v ← s.get
  match v with
  | .list (item :: _) => return value item
  | .str t =>
    match t.toList with
    | c :: _ => return value (.str (String.singleton c))
    | [] => return missing s!"{kindOf v} has no element 0"
  | .map es =>
    match es.find? fun e => e.1.same (.int 0) with
    | some e => return value e.2
    | none => return missing s!"{kindOf v} has no element 0"
  | _ => return missing s!"{kindOf v} has no element 0"

/-- Whether a value counts as present. -/
def isTrue (s : Slot) : Filling Bool := do return (← s.get).truthy

/-- A value as it is written into text. -/
def shown (s : Slot) : Filling String := do (← s.get).shown.mapError .textless

/-- A value that has to be text. -/
def text (s : Slot) : Filling String := do
  match ← s.get with
  | .str t => return t
  | _ => throw .unusable

/-- The items that a value lists as they are written into text. -/
def shownItems (s : Slot) : Filling (List String) := do
  (← s.items).mapM fun v => v.shown.mapError .textless

/-- Text, where a value that counts as absent is empty. -/
def textOrEmpty (s : Slot) : Filling String := do
  if ← s.isTrue then s.text else return ""

/-- A value as it is written into text, where one that counts as absent is empty. -/
def shownOrEmpty (s : Slot) : Filling String := do
  if ← s.isTrue then s.shown else return ""

/-- Text, where a value that counts as absent is null. -/
def optionalText (s : Slot) : Filling Value := do
  if ← s.isTrue then return .str (← s.text) else return .null

end Slot

/-- Runs a step on each item in turn. -/
def eachOf {α : Type} (f : Slot → Filling α) : List Value → Filling (List α)
  | [] => .ok []
  | v :: rest => do
    let a ← f (.value v)
    return a :: (← eachOf f rest)

/-- The failure that a fault is, in a template. -/
def Fault.failure (template : String) : Fault → Failure
  | missing reason => .emission (some template) (.renderingFailed reason)
  | unusable => .malformed
  | textless cause => .textless cause

end ClientGen.Template
