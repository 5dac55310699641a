import ClientGen.Crate.Type
import ClientGen.Proofs.Report.Matching
import ClientGen.Proofs.Value.Shown

/-!
# How a schema gets its Rust type

The cases of `typeOfEntries`: a schema that refers to another has the type of the reference
(`typeOfRef_str`, `typeOfRef_of_untext`), one that combines others that of any JSON value, and every
other one that of the single type that it lists, of its constant, or that its keywords imply
(`typeOfEntries_of_plain`).
-/

namespace ClientGen.Crate

open Schema (Components componentOf?)

variable {components : Components} {sub : Value → Lowering RustType} {es : Entries}

/-! ### References -/

/-- The component that a reference names, if there is one. -/
def namedBy (components : Components) (ref : String) : Option String :=
  (componentOf? ref).filter fun name => (components.lookup name).isSome

/-- The type of a component, or that of any JSON value where there is none. -/
def modelType (name? : Option String) : RustType :=
  match name? with
  | some name => .model (Name.pascal name)
  | none => .json

theorem typeOfRef_str (components : Components) (ref : String) :
    (typeOfRef components (.str ref)).result = .ok (modelType (namedBy components ref)) := by
  change (match namedBy components ref with | some name => _ | none => _ :
    Lowering RustType).result = _
  cases namedBy components ref <;> rfl

/-- A reference that is no text names nothing, and has no type if it cannot be shown. -/
theorem typeOfRef_of_untext {ref : Value} (untext : ref.str? = none) :
    (typeOfRef components ref).result =
      if ref.isWritable then .ok .json else .error (.textless .longInteger) := by
  rw [typeOfRef, Value.shown]
  split
  · change (match (componentOf? ref.display).filter _ with | some name => _ | none => _ :
      Lowering RustType).result = _
    rw [Value.componentOf?_display untext]
    rfl
  · rfl

theorem typeOfRef_result {ref : Value} {t : RustType}
    (typed : (typeOfRef components ref).result = .ok t) :
    t = modelType (ref.str?.bind (namedBy components)) := by
  cases text : ref.str? with
  | none =>
    rw [typeOfRef_of_untext text] at typed
    split at typed
    · exact (Except.ok.inj typed).symm
    · cases typed
  | some s =>
    cases ref with
    | str s' =>
      cases text
      rw [typeOfRef_str] at typed
      exact (Except.ok.inj typed).symm
    | _ => cases text

/-! ### Types of values without parts -/

/-- The names of the types of values without parts. -/
def scalarNames : List String := ["String", "i64", "i32", "u32", "u64", "f64", "f32", "bool"]

theorem scalarNames_of_formatsOf? {type usual : String} {formats : List (String × String)}
    (known : formatsOf? type = some (usual, formats)) :
    usual ∈ scalarNames ∧ ∀ f ∈ formats, f.2 = "Vec<u8>" ∨ f.2 ∈ scalarNames := by
  unfold formatsOf? at known
  split at known <;> cases known <;> decide

theorem scalarType_cases {type : String} {format : Value} {t : RustType}
    (typed : (scalarType type format).result = .ok t) :
    formatsOf? type = none ∧ t = .json ∨ (formatsOf? type).isSome = true ∧
      (t = .vec (.builtin "u8") ∨ ∃ name ∈ scalarNames, t = .builtin name) := by
  unfold scalarType at typed
  cases known : formatsOf? type with
  | none =>
    rw [known] at typed
    cases typed
    exact .inl ⟨rfl, rfl⟩
  | some choices =>
    obtain ⟨usual, formats⟩ := choices
    obtain ⟨first, others⟩ := scalarNames_of_formatsOf? known
    rw [known] at typed
    refine .inr ⟨rfl, ?_⟩
    cases format with
    | str s =>
      dsimp only at typed
      split at typed
      · cases typed
        exact .inl rfl
      · next name bytes found =>
        cases typed
        exact .inr ⟨name, (others _ (Document.mem_of_lookup found)).resolve_left bytes, rfl⟩
      · cases typed
        exact .inr ⟨usual, first, rfl⟩
    | list | map | set | loop => cases typed
    | _ =>
      cases typed
      exact .inr ⟨usual, first, rfl⟩

/-! ### Types to choose from -/

/-- The types that a schema lists, `null` among them. -/
def wordsRead (type : Value) : Lowering (List String) :=
  match type with
  | .str s => pure [s]
  | v => if v.truthy then (List.filterMap Value.str?) <$> Report.ofOption v.listed? else pure []

theorem typesOf_eq (es : Entries) : typesOf es = wordsRead (es.get "type") >>= fun types =>
    pure (types.filter (· != "null"), types.contains "null" || (es.get "nullable").isTrue) := by
  unfold typesOf
  cases es.get "type" with
  | str s => rfl
  | _ => exact (apply_ite (fun x : Lowering (List String) => x >>= _) _ _ _).symm

/-- The types to choose from: those that a schema lists, or else that of its constant. -/
def typesLeft (es : Entries) (listed : List String) : List String :=
  match listed, es.find? "const" with
  | [], some value => [typeOfConst value]
  | types, _ => types

/-- The type of a schema with some types to choose from. -/
def typeOfTypes (sub : Value → Lowering RustType) (es : Entries) (types : List String)
    (nullable : Bool) : Lowering RustType :=
  match types with
  | _ :: _ :: _ => pure .json
  | _ => do
    let type ← typeOfSingle sub es (types.head?.or (impliedType? es))
    return if nullable then type.toOption else type

theorem typeOfEntries_of_ref {ref : Value} (found : es.find? "$ref" = some ref) :
    typeOfEntries components sub es = typeOfRef components ref := by
  rw [typeOfEntries, found]

theorem typeOfEntries_of_composed (found : es.find? "$ref" = none)
    (composed : Schema.isComposed es = true) : typeOfEntries components sub es = pure .json := by
  rw [typeOfEntries, found]
  exact if_pos composed

theorem typeOfEntries_of_plain (found : es.find? "$ref" = none)
    (plain : Schema.isComposed es = false) : typeOfEntries components sub es =
      typesOf es >>= fun read => typeOfTypes sub es (typesLeft es read.1) read.2 := by
  rw [typeOfEntries, found]
  exact if_neg (Bool.eq_false_iff.1 plain)

end ClientGen.Crate
