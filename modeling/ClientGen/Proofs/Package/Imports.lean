import ClientGen.Proofs.Package.Exports

/-!
# What a class file imports

A class file binds the names that it takes from the run-time module, and those of the models that
the types of its operations mention (`classFor_imports`). Each group binds no name twice, and the
class has no name of the run-time module. So all bound names are distinct, and none of them is that
of the class, exactly if no mentioned model has a name of the run-time module or that of the class
(`classFor_bound`). The components of a document may well be called so
(`configuration_bound_twice`).
-/

namespace ClientGen

/-- The name under which a file knows what it imports. -/
def ImportSpecifier.bound (s : ImportSpecifier) : String :=
  (s.localName.filter (!·.isEmpty)).getD s.name

/-- The names that an import binds. -/
def Import.bound (i : Import) : List String := i.specifiers.map (·.bound)

namespace Client

open Report (bind_result_eq_ok_iff)
open Schema (Scope)

/-- The names that the imports of a class bind. -/
def Class.bound (c : Class) : List String := c.imports.flatMap (·.bound)

/-- Whether the type of a parameter or of the value of an operation refers to a name. -/
inductive Mentions (scope : Scope) (o : Operation) (name : String) : Prop where
  | parameter {inputs : Inputs} {i : MethodInput} (sorted : (inputsOf scope o).result = .ok inputs)
      (mem : i ∈ inputs.inOrder) (here : name ∈ i.type.names)
  | value {kind : ResponseKind} {t : TypeExpr}
      (wrapped : (responseOf scope o).result = .ok (kind, t)) (here : name ∈ t.names)

/-! ## Imports of models -/

/-- The names that a plan refers to are those that its operation mentions. -/
theorem mem_referencedNames_iff {scope : Scope} {width : Int} {method : String} {o : Operation}
    {p : MethodPlan} (planned : Plans scope width method o p) {name : String} :
    name ∈ referencedNames p ↔ Mentions scope o name := by
  rw [referencedNames, List.mem_append, List.mem_flatMap]
  constructor
  · rintro (⟨i, mem, here⟩ | here)
    · exact .parameter planned.inputs mem here
    · exact .value planned.response here
  · rintro (⟨sorted, mem, here⟩ | ⟨wrapped, here⟩)
    · rw [planned.inputs] at sorted
      cases sorted
      exact .inl ⟨_, mem, here⟩
    · rw [planned.response] at wrapped
      cases wrapped
      exact .inr here

/-- A class imports the models that its operations mention. -/
theorem classFor_imports {scope : Scope} {width : Int} {security : List Value}
    {modules : List (String × String)} {tag : String} {operations : List Operation} {c : Class}
    (ended : (classFor scope width security modules tag operations).result = .ok c) :
    ∃ referenced, c.name = className tag ∧
      c.imports = runtimeImport :: modelImports modules referenced ∧
      ∀ name, name ∈ referenced ↔ ∃ o ∈ operations, Mentions scope o name := by
  obtain ⟨ms, planned, ended⟩ := bind_result_eq_ok_iff.1 ended
  obtain rfl := Except.ok.inj ended
  have plans := methodsAfter_result planned
  refine ⟨_, rfl, rfl, fun name => ?_⟩
  rw [List.mem_flatMap]
  constructor
  · rintro ⟨m, mem, here⟩
    obtain ⟨o, listed, ⟨method, plan⟩, -⟩ := exists_of_forall₂_right plans mem
    exact ⟨o, listed, (mem_referencedNames_iff plan).1 here⟩
  · rintro ⟨o, listed, mentioned⟩
    obtain ⟨m, mem, ⟨method, plan⟩, -⟩ := exists_of_forall₂_left plans listed
    exact ⟨m, mem, (mem_referencedNames_iff plan).2 mentioned⟩

/-- The imports of models bind the names that have a module, in ascending order. -/
theorem bound_modelImports (modules : List (String × String)) (referenced : List String) :
    (modelImports modules referenced).flatMap (·.bound) =
      (sortedNames referenced).filter fun name => (modules.lookup name).isSome := by
  unfold modelImports
  induction sortedNames referenced with
  | nil => rfl
  | cons name rest ih =>
    rw [List.filterMap_cons, List.filter_cons]
    cases modules.lookup name with
    | none => exact ih
    | some module =>
      rw [Option.map_some, List.flatMap_cons, ih]
      rfl

/-! ## Distinct names -/

/-- What is bound by the import of the run-time module is exported there. -/
theorem mem_runtimeExports_of_bound :
    ∀ name ∈ runtimeImport.bound, name ∈ Package.runtimeExports := by decide +kernel

theorem className_not_mem_bound (tag : String) : className tag ∉ runtimeImport.bound :=
  fun mem => Package.not_mem_runtimeExports (Name.typeName tag) (mem_runtimeExports_of_bound _ mem)

/-- The names that a class binds: those that it needs at run time, and those of the models that its
operations mention, each once. -/
theorem bound_eq_append {scope : Scope} {width : Int} {security : List Value}
    {modules : List (String × String)} {tag : String} {operations : List Operation} {c : Class}
    (ended : (classFor scope width security modules tag operations).result = .ok c) :
    ∃ models : List String, c.bound = runtimeImport.bound ++ models ∧ models.Nodup ∧
      ∀ name, name ∈ models ↔
        ∃ o ∈ operations, Mentions scope o name ∧ (modules.lookup name).isSome := by
  obtain ⟨referenced, -, imports, mentioned⟩ := classFor_imports ended
  refine ⟨(sortedNames referenced).filter fun name => (modules.lookup name).isSome, ?_,
    (nodup_sortedNames referenced).filter _, fun name => ?_⟩
  · rw [Class.bound, imports, List.flatMap_cons, bound_modelImports]
  · rw [List.mem_filter, mem_sortedNames, mentioned]
    exact ⟨fun ⟨⟨o, listed, here⟩, known⟩ => ⟨o, listed, here, known⟩,
      fun ⟨o, listed, here, known⟩ => ⟨⟨o, listed, here⟩, known⟩⟩

/-- **What a class file binds.** The names that a class imports are those that it needs at run time
and those of the models that its operations mention. They are distinct, and none of them is that of
the class, exactly if no mentioned model has one of the names that are needed at run time, or that of
the class. -/
theorem classFor_bound {scope : Scope} {width : Int} {security : List Value}
    {modules : List (String × String)} {tag : String} {operations : List Operation} {c : Class}
    (ended : (classFor scope width security modules tag operations).result = .ok c) :
    (∀ name, name ∈ c.bound ↔ name ∈ runtimeImport.bound ∨
      ∃ o ∈ operations, Mentions scope o name ∧ (modules.lookup name).isSome) ∧
    (c.bound.Nodup ∧ c.name ∉ c.bound ↔
      ∀ o ∈ operations, ∀ name, Mentions scope o name → (modules.lookup name).isSome →
        name ∉ runtimeImport.bound ∧ name ≠ c.name) := by
  obtain ⟨-, named, -⟩ := classFor_imports ended
  obtain ⟨models, split, distinct, mentioned⟩ := bound_eq_append ended
  have members (name : String) : name ∈ c.bound ↔ name ∈ runtimeImport.bound ∨
      ∃ o ∈ operations, Mentions scope o name ∧ (modules.lookup name).isSome := by
    rw [split, List.mem_append, mentioned]
  refine ⟨members, ?_⟩
  rw [members, split, List.nodup_append]
  constructor
  · rintro ⟨⟨-, -, apart⟩, own⟩ o listed name here known
    refine ⟨fun mem => apart name mem name ((mentioned name).2 ⟨o, listed, here, known⟩) rfl, ?_⟩
    rintro rfl
    exact own (.inr ⟨o, listed, here, known⟩)
  · intro free
    refine ⟨⟨by decide +kernel, distinct, ?_⟩, ?_⟩
    · rintro name mem other here rfl
      obtain ⟨o, listed, here, known⟩ := (mentioned name).1 here
      exact (free o listed name here known).1 mem
    · rintro (mem | ⟨o, listed, here, known⟩)
      · exact className_not_mem_bound tag (named ▸ mem)
      · exact (free o listed _ here known).2 rfl

/-- An operation that answers with a component. -/
def answering (name : String) : Operation where
  method := "GET"
  path := "/answer"
  operationId := .str "readAnswer"
  tags := ["pets"]
  summary := .null
  description := .null
  parameters := []
  body := none
  responses := [("200", ⟨"200", .null, [("application/json",
    ⟨.map [(.str "$ref", .str (Schema.refPrefix ++ name))], []⟩)]⟩)]
  isDeprecated := false
  security := none

/-- Components with the names of a pet, of something that is needed at run time, and of a class. -/
def answers : Scope := ⟨[("Pet", .map []), ("Configuration", .map []), ("PetsApi", .map [])], 64⟩

/-- The modules of `answers`. -/
def answerModules : List (String × String) :=
  [("Pet", "pet"), ("Configuration", "configuration"), ("PetsApi", "pets-api")]

theorem classFor_bound_of_answering :
    ∃ c, (classFor answers 80 [] answerModules "pets" [answering "Pet"]).result = .ok c ∧
      (∀ name, name ∈ c.bound ↔ name ∈ runtimeImport.bound ∨
        ∃ o ∈ [answering "Pet"], Mentions answers o name ∧ (answerModules.lookup name).isSome) ∧
      (c.bound.Nodup ∧ c.name ∉ c.bound ↔
        ∀ o ∈ [answering "Pet"], ∀ name, Mentions answers o name →
          (answerModules.lookup name).isSome → name ∉ runtimeImport.bound ∧ name ≠ c.name) := by
  have succeeds : (classFor answers 80 [] answerModules "pets" [answering "Pet"]).result.isOk := by
    decide +kernel
  obtain ⟨c, ended⟩ := exists_eq_ok succeeds
  exact ⟨c, ended, classFor_bound ended⟩

/-- Components may be called like what is needed at run time, and like the class. Then the file binds
one name twice, and that of the class. -/
theorem configuration_bound_twice :
    ∃ c, (classFor answers 80 [] answerModules "pets"
        [answering "Configuration", answering "PetsApi"]).result = .ok c ∧
      ¬ c.bound.Nodup ∧ c.name ∈ c.bound := by
  have succeeds : (classFor answers 80 [] answerModules "pets"
      [answering "Configuration", answering "PetsApi"]).result.isOk := by
    decide +kernel
  obtain ⟨c, ended⟩ := exists_eq_ok succeeds
  obtain ⟨-, named, -⟩ := classFor_imports ended
  obtain ⟨models, split, -, mentioned⟩ := bound_eq_append ended
  have first : (responseOf answers (answering "Configuration")).result =
      .ok (.json, .named "Configuration") := by
    decide +kernel
  have second : (responseOf answers (answering "PetsApi")).result =
      .ok (.json, .named (className "pets")) := by
    decide +kernel
  have runtime : "Configuration" ∈ models := (mentioned _).2
    ⟨_, by simp, .value first (List.mem_singleton_self _), by decide +kernel⟩
  have own : className "pets" ∈ models := (mentioned _).2
    ⟨_, by simp, .value second (List.mem_singleton_self _), by decide +kernel⟩
  refine ⟨c, ended, ?_, ?_⟩
  · rw [split, List.nodup_append]
    exact fun ⟨_, _, apart⟩ => apart "Configuration" (by decide +kernel) _ runtime rfl
  · rw [named, split]
    exact List.mem_append_right _ own

end Client

end ClientGen
