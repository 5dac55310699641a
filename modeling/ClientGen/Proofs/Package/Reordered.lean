import ClientGen.Generator.Run
import ClientGen.Proofs.Client.Alike
import ClientGen.Proofs.Document.Reordered
import ClientGen.Proofs.Package.Bare
import ClientGen.Proofs.Text.Order

/-!
# Clients of documents whose components stand in another order

The declarations of components are sorted by their names, which are distinct in a client, and
everything else looks components up by name. So **the order of the components makes no difference to
a client** (`filesOf_typeScript_withComponents`).
-/

namespace ClientGen

open Document (schemas_withComponents_perm)
open Report (bind_result_eq_ok_iff bind_result_of_ok)
open Schema (Scope)

namespace Package

section Reordered

variable {d : Document} {components : List (String × Spot)}
  (reordered : components.Perm d.components) (distinct : (d.schemas.map (·.1)).Nodup)

include reordered distinct

theorem alike_scopeOf_withComponents : (scopeOf (d.withComponents components)).Alike (scopeOf d) where
  component name := by
    have schemas := schemas_withComponents_perm reordered
    change Schema.component? (d.withComponents components).schemas name =
      Schema.component? d.schemas name
    rw [Schema.component?, Schema.component?, lookup_eq_of_perm schemas distinct]
  length := (schemas_withComponents_perm reordered).length_eq
  maxDepth := rfl

end Reordered

/-! ### Declarations -/

theorem declareAll_of_forall₂ {scope : Scope} {cs : Schema.Components} {all : List Declaration}
    (each : List.Forall₂ (fun c decl => (Schema.declare scope [] c.1 c.2).result = .ok decl) cs all) :
    (declareAll scope cs).result = .ok all := by
  induction each with
  | nil => rfl
  | cons head tail ih =>
    exact bind_result_eq_ok_iff.2 ⟨_, head, bind_result_eq_ok_iff.2 ⟨_, ih, rfl⟩⟩

/-- Components in another order have their declarations in that order. -/
theorem exists_declareAll_of_perm {scope scope' : Scope} (alike : scope'.Alike scope)
    {cs cs' : Schema.Components} (perm : cs'.Perm cs) {all : List Declaration}
    (ended : (declareAll scope cs).result = .ok all) :
    ∃ all', all'.Perm all ∧ (declareAll scope' cs').result = .ok all' := by
  obtain ⟨all', each, perm'⟩ := List.perm_comp_forall₂ perm (declareAll_result ended)
  refine ⟨all', perm', declareAll_of_forall₂ ?_⟩
  rwa [alike.declare_eq]

section Reordered

variable {d : Document} {components : List (String × Spot)}
  (reordered : components.Perm d.components) (distinct : (d.schemas.map (·.1)).Nodup)

include reordered distinct

/-- Declarations with distinct names are sorted alike. -/
theorem declarationsOf_withComponents {declarations : List Declaration}
    (named : (declarations.map (·.name)).Nodup)
    (declared : (declarationsOf d (scopeOf d)).result = .ok declarations) :
    (declarationsOf (d.withComponents components) (scopeOf (d.withComponents components))).result =
      .ok declarations := by
  obtain ⟨all, made, sorted⟩ := bind_result_eq_ok_iff.1 declared
  obtain rfl := Except.ok.inj sorted
  obtain ⟨all', perm, made'⟩ := exists_declareAll_of_perm
    (alike_scopeOf_withComponents reordered distinct) (schemas_withComponents_perm reordered) made
  refine bind_result_eq_ok_iff.2 ⟨all', made', congrArg Except.ok ?_⟩
  refine Text.mergeSort_eq_of_perm perm ?_
  exact ((List.mergeSort_perm _ _).map _).nodup_iff.1 named

/-- **A client does not depend on the order of the components.** -/
theorem typeScriptFiles_withComponents {settings : Settings} {files : List OutputFile}
    (ended : (typeScriptFiles settings d).result = .ok files) :
    (typeScriptFiles settings (d.withComponents components)).result = .ok files := by
  obtain ⟨others, _, _, _, made⟩ := typeScriptFiles_result ended
  obtain ⟨declarations, declared, ended⟩ := bind_result_eq_ok_iff.1 ended
  have names : (declarations.map (·.name)).Nodup := by
    have own := (declarationsOf_declares d declarations declared).names
    exact (own.trans made.declares.names.symm).nodup_iff.2 (nodup_names made)
  refine bind_result_eq_ok_iff.2
    ⟨declarations, declarationsOf_withComponents reordered distinct names declared, ?_⟩
  -- What follows looks at the components for the classes only.
  have classes (width : Int) (modules : List (String × String)) :
      Client.apiClasses (d.withComponents components) (scopeOf (d.withComponents components)) width
        modules = Client.apiClasses d (scopeOf d) width modules :=
    (alike_scopeOf_withComponents reordered distinct).classesFor_eq width d.security modules _
  simp only [classes]
  exact ended

end Reordered

end Package

theorem Backend.filesOf_typeScript_of_perm {d : Document} {components : List (String × Spot)}
    (reordered : components.Perm d.components)
    (distinct : (d.schemas.map fun c => Name.typeName c.1).Nodup) {settings : Settings}
    {files : List OutputFile} (ended : (typeScript.filesOf settings d).result = .ok files) :
    (typeScript.filesOf settings (d.withComponents components)).result = .ok files := by
  obtain ⟨d', prepared, ended⟩ := bind_result_eq_ok_iff.1 ended
  obtain ⟨others, perm, prepared'⟩ := Document.prepare_withComponents reordered distinct prepared
  have names := Document.nodup_names_of_prepare prepared distinct
  exact bind_result_eq_ok_iff.2
    ⟨_, prepared', Package.typeScriptFiles_withComponents perm names ended⟩

/-- **The order of the components makes no difference**: a document whose components have distinct
type names has a client if it has one with its components in another order, and it is the same. -/
theorem Backend.filesOf_typeScript_withComponents {d : Document} {components : List (String × Spot)}
    (reordered : components.Perm d.components)
    (distinct : (d.schemas.map fun c => Name.typeName c.1).Nodup) (settings : Settings)
    (files : List OutputFile) :
    (typeScript.filesOf settings (d.withComponents components)).result = .ok files ↔
      (typeScript.filesOf settings d).result = .ok files := by
  refine ⟨fun ended => ?_, filesOf_typeScript_of_perm reordered distinct⟩
  have distinct' : ((d.withComponents components).schemas.map fun c => Name.typeName c.1).Nodup :=
    ((schemas_withComponents_perm reordered).map _).nodup_iff.2 distinct
  have turned : (d.withComponents components).withComponents d.components = d := rfl
  have back := filesOf_typeScript_of_perm (d := d.withComponents components) reordered.symm
    distinct' ended
  rwa [turned] at back

theorem Backend.filesOf_typeScript_withComponents_of_pets :
    let d := Document.titledSchemas Package.petSchemas
    ∃ files, files.map (·.name) = ["litter.ts", "pet.ts", "runtime.ts", "index.ts"] ∧
      (typeScript.filesOf {} d).result = .ok files ∧
      (typeScript.filesOf {} (d.withComponents d.components.reverse)).result = .ok files := by
  intro d
  have ended : (typeScript.filesOf {} d).result = .ok _ := bind_result_eq_ok_iff.2
    ⟨_, Package.prepare_titledPets, Package.typeScriptFiles_titledPets⟩
  refine ⟨_, by decide +kernel, ended, ?_⟩
  have distinct : (d.schemas.map fun c => Name.typeName c.1).Nodup := by decide +kernel
  exact (filesOf_typeScript_withComponents (List.reverse_perm _) distinct {} _).2 ended

end ClientGen
