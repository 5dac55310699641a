import ClientGen.Proofs.Client.Failing
import ClientGen.Proofs.Files.Duplicates
import ClientGen.Proofs.Package.Closed

/-!
# The model files of a client

The model files of a client are named after the types of the components. The client is refused
because of a duplicate model file only where two of these names are the same
(`typeScriptFiles_namesModels`).
-/

namespace ClientGen.Package

open Failure (IsAboutValue)
open OutputFile (namesIn namesIn_append namesIn_of_category namesIn_of_category_ne fails_encodable
  fails_checkDistinct)
open Report (Fails fails_pure fails_ofText fails_ofExcept)
open Schema (Scope)

/-- The names of the model files of a client. -/
def modelNames (naming : Name.Convention) (d : Document) : List String :=
  d.schemas.map fun c => naming.apply (Name.typeName c.1) ++ ".ts"

/-! ### The names -/

theorem category_of_mem_classFiles {margin : Margin} {classes : List Client.Class}
    {classFiles : List OutputFile} (written : classes.mapM (classFile margin) = .ok classFiles) :
    ∀ f ∈ classFiles, f.category = .apis := by
  intro f mem
  obtain ⟨c, -, made⟩ := exists_of_forall₂_right (forall₂_of_mapM written) mem
  obtain ⟨text, -, rfl⟩ := classFile_result made
  rfl

/-- The files of a client, in their order, have the names of the model files for models. -/
theorem namesIn_models_perm {settings : Settings} {d : Document} {declarations : List Declaration}
    {classFiles project : List OutputFile} (declared : Declares d declarations)
    (apis : ∀ f ∈ classFiles, f.category = .apis)
    (others : ∀ f ∈ project, f.category = .project) :
    (namesIn .models (declarations.map (fileOf settings declarations) ++ classFiles ++
        [runtimeFile d, indexFile (declarations.map (fileOf settings declarations)) classFiles] ++
        project)).Perm
      (modelNames settings.files.naming d) := by
  have models : ∀ f ∈ declarations.map (fileOf settings declarations), f.category = .models :=
    List.forall_mem_map.2 fun _ _ => rfl
  have rest : ∀ f ∈ classFiles ++ ([runtimeFile d,
      indexFile (declarations.map (fileOf settings declarations)) classFiles] ++ project),
      f.category ≠ .models := by
    intro f mem
    simp only [List.mem_append, List.mem_cons, List.not_mem_nil, or_false] at mem
    rcases mem with mem | (rfl | rfl) | mem
    · rw [apis f mem]
      exact nofun
    · exact nofun
    · exact nofun
    · rw [others f mem]
      exact nofun
  rw [List.append_assoc, List.append_assoc, namesIn_append, namesIn_of_category models,
    namesIn_of_category_ne rest, List.append_nil, List.map_map]
  have named : declarations.map ((·.name) ∘ fileOf settings declarations) =
      (declarations.map (·.name)).map fun name => settings.files.naming.apply name ++ ".ts" := by
    rw [List.map_map]
    exact List.map_congr_left fun decl mem => fileOf_name mem
  have types : modelNames settings.files.naming d =
      (scopeOf d).typeNames.map fun name => settings.files.naming.apply name ++ ".ts" := by
    rw [modelNames, Schema.Scope.typeNames, List.map_map]
    rfl
  rw [named, types]
  exact declared.names.map _

/-! ### Failures -/

/-- The text of a class cannot be made because of a body, and not of another file. -/
theorem fails_classText (c : Client.Class) (margin : Margin) (names : List String) :
    FailsWith (Failure.IsRightAbout names) (c.text margin) := by
  have body (b : Client.Body) : FailsWith (Failure.IsRightAbout names) b.text := by
    unfold Client.Body.text
    split
    · rintro _ ⟨⟩ ⟨_, ⟨⟩⟩
    · exact failsWith_ok _
    · split
      · rintro _ ⟨⟩ ⟨_, ⟨⟩⟩
      · exact failsWith_ok _
      · split
        · rintro _ ⟨⟩ ⟨_, ⟨⟩⟩
        · exact failsWith_ok _
  have method (width : Int) (m : Client.Method) :
      FailsWith (Failure.IsRightAbout names) (m.text width) :=
    (body m.body).bind fun _ => failsWith_ok _
  exact (failsWith_mapM (method _) _).bind fun _ => failsWith_ok _

theorem fails_declareAll (scope : Scope) (components : Schema.Components) :
    Fails IsAboutValue (declareAll scope components) := by
  induction components with
  | nil => exact fails_pure _
  | cons c rest ih =>
    exact (Schema.fails_declare scope [] c.1 c.2).bind fun declared => ih.bind_pure _

/-- The check of the files of a client, once they are made. -/
theorem fails_check {settings : Settings} {d : Document} {declarations : List Declaration}
    {classFiles project : List OutputFile} (declared : Declares d declarations)
    (apis : ∀ f ∈ classFiles, f.category = .apis)
    (others : ∀ f ∈ project, f.category = .project) :
    Fails (Failure.IsRightAbout (modelNames settings.files.naming d)) (do
      let models := declarations.map (fileOf settings declarations)
      let files := models ++ classFiles ++ [runtimeFile d, indexFile models classFiles] ++ project
      Report.ofExcept (OutputFile.checkDistinct files)
      pure files : Schema.Lowering (List OutputFile)) := by
  refine .bind_pure (fails_ofExcept ?_) _
  refine (fails_checkDistinct _).mono fun e right duplicate distinct => ?_
  exact right duplicate ((namesIn_models_perm declared apis others).nodup_iff.2 distinct)

/-- A client is refused because of a duplicate model file only where two have one name. -/
theorem fails_typeScriptFiles (settings : Settings) (d : Document) :
    Fails (Failure.IsRightAbout (modelNames settings.files.naming d))
      (typeScriptFiles settings d) := by
  refine ((fails_declareAll _ _).bind_pure _ |>.mono IsAboutValue.isRightAbout).bind_of_ok
    fun declarations declared => ?_
  refine .bind_of_ok (fails_ofExcept ?encoding) fun models modelled => ?_
  case encoding =>
    exact (failsWith_mapM (fun _ => fails_encodable _) _).mono Failure.isRightAbout_of_noBytes
  refine ((Client.fails_apiClasses _ _ _ _).mono IsAboutValue.isRightAbout).bind fun classes => ?_
  refine .bind_of_ok (fails_ofExcept (failsWith_mapM (fun c => ?writing) _))
    fun classFiles written => ?_
  case writing =>
    exact (fails_classText c _ _).bind fun text =>
      (fails_encodable _).mono Failure.isRightAbout_of_noBytes
  refine .bind_of_ok (fails_ofExcept ((fails_encodable _).mono Failure.isRightAbout_of_noBytes))
    fun runtime encoded => ?_
  rw [Report.result_ofExcept] at modelled written encoded
  obtain rfl := mapM_encodable_eq _ modelled
  obtain rfl := encodable_eq encoded
  have apis := category_of_mem_classFiles written
  have names := declarationsOf_declares d declarations declared
  split
  · refine .bind_of_ok ((fails_ofText _).mono IsAboutValue.isRightAbout) fun listed rendered => ?_
    refine .bind_of_ok (fails_ofExcept ?_) fun project kept => ?_
    · exact (failsWith_mapM fails_encodable _).mono Failure.isRightAbout_of_noBytes
    obtain rfl : project = listed := by
      rw [mapM_encodable_eq id kept, List.map_id]
    have known := mem_projectFiles (Report.ofText_result_eq_ok_iff.1 rendered)
    exact fails_check names apis fun f mem => (known f mem).1
  · refine (fails_pure _).bind_of_ok fun project none => ?_
    cases none
    exact fails_check names apis nofun

/-- **The model files of a client** have the names of the model files for the types of the
components. -/
theorem typeScriptFiles_namesModels (settings : Settings) (d : Document) :
    NamesModels (modelNames settings.files.naming d) (typeScriptFiles settings d) where
  made files ended := by
    obtain ⟨declarations, classes, classFiles, project, made⟩ := typeScriptFiles_result ended
    have names : (namesIn .models files).Perm (modelNames settings.files.naming d) := by
      rw [made.listed]
      exact namesIn_models_perm made.declares (classFiles_eq made).1 made.others
    exact ⟨names, names.nodup_iff.1 (OutputFile.nodup_namesIn made.distinct .models)⟩
  refused := fails_typeScriptFiles settings d

end ClientGen.Package
