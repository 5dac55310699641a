import ClientGen.Report.Failure

/-!
# Steps that report

A step gives notes along the way and then ends in a value or in a failure. The notes that were
given before a failure are kept. What a step does never depends on notes given earlier.

Warnings are notes on a document that can still be used. Each of them belongs to the channel of the
stage that gives it.
-/

namespace ClientGen

/-! ## Warnings -/

/-- A remark on a document that does not stop generation. -/
inductive Warning where
  | noPaths (title : String)
  | externalReference (ref : String)
  | unresolvedSchema (ref : String)
  | renamedSchema (name newName : String)
  | namelessParameter (shown : String)
  | unresolvedReference (ref : String)
  | circularReference (typeName closing : String)
  | unresolvedDeclaration (ref typeName : String)
  | depthExceeded (limit : Int)
  | unresolvedType (ref : String)
  | unknownType (type : String)
  | renamedMethod (name className newName : String)
  | droppedParameter (location name method path : String)
  | unresolvedRustType (ref : String)
deriving DecidableEq, Repr

namespace Warning

/-- The text of a warning. -/
def message : Warning → String
  | noPaths title => s!"Document '{title}' declares no paths; only models will be generated"
  | externalReference ref => s!"External reference {ref} is not supported and will not be resolved"
  | unresolvedSchema ref => s!"Unresolved schema reference {ref}"
  | renamedSchema name newName =>
    s!"Schema name '{name}' collides after normalisation; renamed to '{newName}'"
  | namelessParameter shown => s!"Skipping parameter without a name: {shown}"
  | unresolvedReference ref => s!"Unresolved reference {ref}"
  | circularReference typeName closing => s!"Circular reference from {typeName} to {closing}"
  | unresolvedDeclaration ref typeName => s!"Unresolved reference {ref} in schema {typeName}"
  | depthExceeded limit => s!"Schema nesting exceeds depth {limit}; falling back to any"
  | unresolvedType ref => s!"Unresolved reference {ref}; using any"
  | unknownType type => s!"Unknown schema type '{type}'; using any"
  | renamedMethod name className newName =>
    s!"Method name {name} already used in {className}; renamed to {newName}"
  | droppedParameter location name method path =>
    s!"Dropping {location} parameter '{name}' of {method} {path}"
  | unresolvedRustType ref => s!"Unresolved reference {ref}; using serde_json::Value"

/-- The channel of a warning. -/
def channel : Warning → String
  | noPaths _ | externalReference _ | unresolvedSchema _ | renamedSchema _ _ =>
    "oas_generator.parser.transforms"
  | namelessParameter _ | unresolvedReference _ => "oas_generator.parser.oas_parser"
  | circularReference _ _ | unresolvedDeclaration _ _ | depthExceeded _ | unresolvedType _
  | unknownType _ => "oas_generator.typescript.schema_mapper"
  | renamedMethod _ _ _ => "oas_generator.typescript.api_class_builder"
  | droppedParameter _ _ _ _ => "oas_generator.typescript.parameter_extractor"
  | unresolvedRustType _ => "oas_generator.rust.type_mapping"

end Warning

/-! ## Reports -/

/-- The notes of a step and how it ended. -/
structure Report (ν α : Type) where
  notes : List ν
  result : Except Failure α

namespace Report

variable {ν μ α β : Type}

/-- A step without notes that ends in `a`. -/
@[inline] def done (a : α) : Report ν α := ⟨[], .ok a⟩

/-- A step and then the step for its value; a failure ends both. -/
def andThen (x : Report ν α) (f : α → Report ν β) : Report ν β :=
  match x.result with
  | .ok a => ⟨x.notes ++ (f a).notes, (f a).result⟩
  | .error e => ⟨x.notes, .error e⟩

instance : Monad (Report ν) where
  pure := done
  bind := andThen

/-- Ends in a failure. -/
def fail (e : Failure) : Report ν α := ⟨[], .error e⟩

/-- Ends in a failure where a value is used that cannot stand there. -/
def malformed : Report ν α := fail .malformed

/-- Gives one note. -/
def note (n : ν) : Report ν Unit := ⟨[n], .ok ()⟩

/-- Changes every note. -/
def mapNotes (f : ν → μ) (x : Report ν α) : Report μ α := ⟨x.notes.map f, x.result⟩

/-- The value of an option, whose absence is a failure. -/
def ofOption (o : Option α) : Report ν α :=
  match o with
  | some a => done a
  | none => malformed

/-- The text of a value, whose absence is a failure. -/
def ofText (t : Except Textless α) : Report ν α := ⟨[], t.mapError .textless⟩

/-- The outcome without notes. -/
def ofExcept (e : Except Failure α) : Report ν α := ⟨[], e⟩

@[simp] theorem done_andThen (a : α) (f : α → Report ν β) : andThen (done a) f = f a := by
  simp [andThen, done]

@[simp] theorem andThen_done (x : Report ν α) : andThen x done = x := by
  cases x with
  | mk notes result => cases result <;> simp [andThen, done]

theorem andThen_assoc {γ : Type} (x : Report ν α) (f : α → Report ν β) (g : β → Report ν γ) :
    andThen (andThen x f) g = andThen x fun a => andThen (f a) g := by
  cases x with
  | mk notes result =>
    cases result with
    | error e => simp [andThen]
    | ok a =>
      cases h : (f a).result <;> simp [andThen, h]

instance : LawfulMonad (Report ν) := LawfulMonad.mk' (Report ν)
  (fun x => andThen_done x) (fun a f => done_andThen a f) (fun x f g => andThen_assoc x f g)

end Report

end ClientGen
