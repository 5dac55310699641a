import ClientGen.Proofs.Crate.Files
import ClientGen.Proofs.Document.Prepared
import ClientGen.Proofs.Lists.Pointwise
import ClientGen.Proofs.Name.FileName
import ClientGen.Proofs.Package.ModelNames

/-!
# Model files of a prepared document

Names are made distinct when a document is prepared, but the model files of both languages are named
after the types of the components, and these are read off the names once more. **Model files are
distinct exactly if the types are** (`modelFiles_distinct`), for TypeScript in every spelling of file
names; the crate has a module `mod.rs` of its own besides. The types are distinct where the names are
settled (`nodup_typeNames_of_settled`), but not where `a_b` has become `AB` and `ab` has become `Ab`
(`modelFiles_clash`).
-/

namespace ClientGen

open Document (prepare_result_eq_ok_iff isTypeName_of_prepare titledSchemas prepare_titledSchemas)
open Name (IsTypeName typeName tellsWords)

section Prepared

variable {d d' : Document} (prepared : d.prepare.result = .ok d')

include prepared

theorem nodup_packageModelNames_iff (naming : Name.Convention) :
    (Package.modelNames naming d').Nodup ↔ (d'.schemas.map fun c => typeName c.1).Nodup := by
  have spelled := isTypeName_of_prepare prepared
  refine nodup_map_congr fun c mem c' mem' => ?_
  rw [String.append_left_inj, Name.apply_typeName naming (spelled c mem),
    Name.apply_typeName naming (spelled c' mem')]
  exact Name.apply_eq_iff naming (spelled c mem) (spelled c' mem')

theorem nodup_crateModelNames_iff : (Crate.modelNames d').Nodup ↔
    (d'.schemas.map fun c => typeName c.1).Nodup ∧
      "Mod" ∉ d'.schemas.map fun c => typeName c.1 := by
  have spelled := isTypeName_of_prepare prepared
  have modules : (d'.schemas.map fun c => Name.snake c.1 ++ ".rs").Nodup ↔
      (d'.schemas.map fun c => typeName c.1).Nodup := by
    refine nodup_map_congr fun c mem c' mem' => ?_
    rw [String.append_left_inj]
    exact Name.apply_eq_iff .snake (spelled c mem) (spelled c' mem')
  have listing : "mod.rs" ∈ (d'.schemas.map fun c => Name.snake c.1 ++ ".rs") ↔
      "Mod" ∈ d'.schemas.map fun c => typeName c.1 := by
    -- The name of the module that lists the others is spelled like the type `Mod`.
    have mark : "mod.rs" = Name.snake "Mod" ++ ".rs" := by decide +kernel
    have type : "Mod" = typeName "Mod" := by decide +kernel
    have isType : IsTypeName "Mod" := type ▸ Name.isTypeName_typeName "Mod"
    rw [List.mem_map, List.mem_map]
    refine exists_congr fun c => and_congr_right fun mem => ?_
    rw [mark, String.append_left_inj]
    exact (Name.apply_eq_iff .snake (spelled c mem) isType).trans (by rw [← type])
  rw [Crate.modelNames, List.nodup_append_comm, List.singleton_append, List.nodup_cons, modules,
    listing, and_comm]

/-- Types are distinct where names are distinct and settled. -/
theorem nodup_typeNames_of_settled (distinct : (d.schemas.map (·.1)).Nodup)
    (settled : ∀ c ∈ d'.schemas, tellsWords c.1.toList = true) :
    (d'.schemas.map fun c => typeName c.1).Nodup := by
  have spelled := isTypeName_of_prepare prepared
  obtain ⟨-, -, named, renamed, -, rfl⟩ := prepare_result_eq_ok_iff.1 prepared
  have names := (Document.isRenamed_of_ok renamed).nodup_names distinct
  have same : named.normalizedSchemas.schemas.map (fun c => typeName c.1) =
      named.schemas.map (·.1) := by
    rw [List.map_congr_left fun c mem =>
      (Name.typeName_eq_self_iff (spelled c mem)).2 (settled c mem)]
    rw [Document.schemas_normalizedSchemas, Document.schemas, List.map_map, List.map_map]
    rfl
  rwa [same]

/-- **Model files are distinct exactly if the types are.** The model files of a prepared document
that a backend makes are named after the types of the components, with a module of the crate that
lists the others; a backend fails because of a duplicate model file only where two of these names are
the same. -/
theorem modelFiles_distinct (settings : Settings) :
    NamesModels (Package.modelNames settings.files.naming d') (Package.typeScriptFiles settings d') ∧
    NamesModels (Crate.modelNames d') (Crate.crateFiles settings.package d') ∧
    ((Package.modelNames settings.files.naming d').Nodup ↔
      (d'.schemas.map fun c => typeName c.1).Nodup) ∧
    ((Crate.modelNames d').Nodup ↔ (d'.schemas.map fun c => typeName c.1).Nodup ∧
      "Mod" ∉ d'.schemas.map fun c => typeName c.1) :=
  ⟨Package.typeScriptFiles_namesModels settings d', Crate.crateFiles_namesModels settings.package d',
    nodup_packageModelNames_iff prepared settings.files.naming, nodup_crateModelNames_iff prepared⟩

end Prepared

theorem modelFiles_distinct_of_pets :
    let d := titledSchemas [("pet", .map []), ("owner_name", .map [])]
    ∃ d', d.prepare.result = .ok d' ∧
      Package.modelNames .kebab d' = ["pet.ts", "owner-name.ts"] ∧
      Crate.modelNames d' = ["pet.rs", "owner_name.rs", "mod.rs"] ∧
      NamesModels (Package.modelNames .kebab d') (Package.typeScriptFiles {} d') ∧
      NamesModels (Crate.modelNames d') (Crate.crateFiles {} d') ∧
      ((Package.modelNames .kebab d').Nodup ↔ (d'.schemas.map fun c => typeName c.1).Nodup) ∧
      ((Crate.modelNames d').Nodup ↔ (d'.schemas.map fun c => typeName c.1).Nodup ∧
        "Mod" ∉ d'.schemas.map fun c => typeName c.1) := by
  intro d
  have prepared := prepare_titledSchemas
    (⟨by decide +kernel, by decide +kernel, by decide +kernel⟩ : d.IsValid) (by decide +kernel)
    (by decide +kernel) (by decide +kernel)
  exact ⟨_, prepared, by decide +kernel, by decide +kernel, modelFiles_distinct prepared {}⟩

/-- The models of the components `a_b` and `ab`. -/
def clashingModels : List Declaration := [
  .typeAlias { name := "Ab", type := .any }, .typeAlias { name := "Ab", type := .any }]

/-- The components `a_b` and `ab` have one model file, and `mod` has the one of the module that lists
the others. -/
theorem modelFiles_clash :
    let d := titledSchemas [("a_b", .map []), ("ab", .map [])]
    let m := titledSchemas [("mod", .map [])]
    (∃ d', d.prepare.result = .ok d' ∧ d'.schemas.map (·.1) = ["AB", "Ab"] ∧
      (Package.typeScriptFiles {} d').result =
        .error (.emission (some "ab.ts") (.duplicateFile "models")) ∧
      Crate.modelNames d' = ["ab.rs", "ab.rs", "mod.rs"] ∧
      ∀ files, (Crate.crateFiles {} d').result ≠ .ok files) ∧
    ∃ m', m.prepare.result = .ok m' ∧ m'.schemas.map (·.1) = ["Mod"] ∧
      Crate.modelNames m' = ["mod.rs", "mod.rs"] ∧
      ∀ files, (Crate.crateFiles {} m').result ≠ .ok files := by
  intro d m
  have refused {d : Document} {names : List String} (named : Crate.modelNames d = names)
      (twice : ¬ names.Nodup) (files : List OutputFile) :
      (Crate.crateFiles {} d).result ≠ .ok files := fun ended =>
    twice (named ▸ ((Crate.crateFiles_namesModels {} d).made files ended).2)
  constructor
  · have prepared := prepare_titledSchemas
      (⟨by decide +kernel, by decide +kernel, by decide +kernel⟩ : d.IsValid) (by decide +kernel)
      (by decide +kernel) (by decide +kernel)
    have names : Crate.modelNames d.renamed.normalizedSchemas = ["ab.rs", "ab.rs", "mod.rs"] := by
      decide +kernel
    have declared : (Package.declarationsOf d.renamed.normalizedSchemas
        (Package.scopeOf d.renamed.normalizedSchemas)).result = .ok clashingModels := by
      have sorted : clashingModels.mergeSort (fun a b => Text.le a.name b.name) = clashingModels :=
        List.mergeSort_of_pairwise (by decide +kernel)
      have schemas : d.renamed.normalizedSchemas.schemas =
          [(d.newName "a_b", .map []), (d.newName "ab", .map [])] := rfl
      have types : typeName (d.newName "a_b") = "Ab" ∧ typeName (d.newName "ab") = "Ab" := by
        decide +kernel
      have made : (Package.declareAll (Package.scopeOf d.renamed.normalizedSchemas)
          [(d.newName "a_b", .map []), (d.newName "ab", .map [])]).result =
          .ok [.typeAlias { name := typeName (d.newName "a_b"), type := .any },
            .typeAlias { name := typeName (d.newName "ab"), type := .any }] := rfl
      rw [types.1, types.2] at made
      exact Report.bind_result_eq_ok_iff.2
        ⟨clashingModels, schemas ▸ made, congrArg Except.ok sorted⟩
    have plain : ∀ decl ∈ clashingModels,
        Package.IsPlain (Package.fileOf {} clashingModels decl).text := by
      unfold Package.IsPlain
      decide +kernel
    have banner : Package.IsPlain (Source.banner "Pets" "1" .slashes) := by
      refine Package.isPlain_banner ?_ ?_ <;> · unfold Package.IsPlain; decide +kernel
    have operations : d.renamed.normalizedSchemas.operations = [] := rfl
    have server : d.renamed.normalizedSchemas.basePath = "http://localhost" := rfl
    refine ⟨_, prepared, by decide +kernel, ?_, names, refused names (by decide)⟩
    refine (Package.typeScriptFiles_of_plain rfl declared plain operations banner
      (server ▸ Package.isPlain_local) rfl).trans ?_
    decide +kernel
  · have prepared := prepare_titledSchemas
      (⟨by decide +kernel, by decide +kernel, by decide +kernel⟩ : m.IsValid) (by decide +kernel)
      (by decide +kernel) (by decide +kernel)
    have names : Crate.modelNames m.renamed.normalizedSchemas = ["mod.rs", "mod.rs"] := by
      decide +kernel
    exact ⟨_, prepared, by decide +kernel, names, refused names (by decide)⟩

end ClientGen
