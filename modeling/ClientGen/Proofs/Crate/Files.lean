import ClientGen.Crate.Files
import ClientGen.Proofs.Files.Duplicates

/-!
# The files of a crate

What the files of a crate are made from is said once (`crateFiles_result`): a module for the model of
each component, the module that lists them, and three project files, no two of which take one place.
The crate is refused because of a duplicate model file only where two of the modules have one name
(`crateFiles_namesModels`); the module that lists the others is one of them.
-/

namespace ClientGen.Crate

open Failure (IsAboutValue)
open OutputFile (namesIn namesIn_append namesIn_of_category namesIn_of_category_ne fails_encodable
  fails_checkDistinct)
open Package (DistinctPlaces distinct_of_checkDistinct encodable_eq)
open Report (Fails Yields fails_pure fails_note fails_malformed fails_ofOption fails_ofText
  fails_ofExcept bind_result_eq_ok_iff yields_bind)

/-! ### Models -/

theorem modelOf_name (components : Schema.Components) (name : String) (schema : Value) :
    Yields (fun m => m.name = name) (modelOf components name schema) := by
  unfold modelOf
  split
  · refine yields_bind fun read => ?_
    obtain ⟨types, nullable⟩ := read
    dsimp only
    split
    · exact .pure rfl
    · split
      · exact yields_bind fun required => yields_bind fun fields => .pure rfl
      · exact yields_bind fun type => .pure rfl
  · exact .pure rfl

/-- There is a model for each component. -/
theorem modelsOf_names (all components : Schema.Components) :
    Yields (fun ms => ms.map (·.name) = components.map (·.1)) (modelsOf all components) := by
  induction components with
  | nil => exact .pure rfl
  | cons c rest ih =>
    refine (modelOf_name all c.1 c.2).bind fun model named => ih.bind fun models names => .pure ?_
    rw [List.map_cons, List.map_cons, named, names]

theorem fails_typesOf (es : Entries) : Fails IsAboutValue (typesOf es) := by
  unfold typesOf
  split
  · exact (fails_pure _).bind_pure _
  · exact .ite (((fails_ofOption _).map _).bind_pure _) ((fails_pure _).bind_pure _)

theorem fails_scalarType (type : String) (format : Value) :
    Fails IsAboutValue (scalarType type format) := by
  unfold scalarType
  split
  · exact fails_pure _
  · split
    · exact fails_malformed
    · exact fails_malformed
    · exact fails_malformed
    · exact fails_malformed
    · split <;> exact fails_pure _
    · exact fails_pure _

theorem fails_typeOfRef (components : Schema.Components) (ref : Value) :
    Fails IsAboutValue (typeOfRef components ref) := by
  refine (fails_ofText _).bind fun text => ?_
  split
  · exact fails_pure _
  · exact (fails_note _).bind_pure _

section Parts

variable {sub : Value → Lowering RustType} (nested : ∀ v, Fails IsAboutValue (sub v))

include nested

theorem fails_typeOfSingle (es : Entries) (type : Option String) :
    Fails IsAboutValue (typeOfSingle sub es type) := by
  unfold typeOfSingle
  split
  · split
    · exact (nested _).bind_pure _
    · exact fails_pure _
  · split
    · exact (nested _).bind_pure _
    · exact fails_pure _
  · exact fails_scalarType _ _
  · exact fails_pure _

theorem fails_typeOfEntries (components : Schema.Components) (es : Entries) :
    Fails IsAboutValue (typeOfEntries components sub es) := by
  unfold typeOfEntries
  split
  · exact fails_typeOfRef components _
  · refine .ite (fails_pure _) ((fails_typesOf es).bind fun (listed, nullable) => ?_)
    dsimp only
    split
    · exact fails_pure _
    · exact (fails_typeOfSingle nested es _).bind_pure _

end Parts

theorem fails_typeOf (components : Schema.Components) (schema : Value) :
    Fails IsAboutValue (typeOf components schema) := by
  rw [typeOf]
  generalize deepest = left
  induction left generalizing schema with
  | zero =>
    cases schema with
    | map es => exact fails_malformed
    | _ => exact fails_pure _
  | succ left ih =>
    cases schema with
    | map es => exact fails_typeOfEntries ih components es
    | _ => exact fails_pure _

theorem fails_fieldsOf (components : Schema.Components) (own : String) (required : List Key)
    (properties : Entries) : Fails IsAboutValue (fieldsOf components own required properties) := by
  induction properties with
  | nil => exact fails_pure _
  | cons p rest ih =>
    exact (fails_typeOf components _).bind fun type => (fails_ofOption _).bind fun wireName =>
      ih.bind_pure _

theorem fails_modelOf (components : Schema.Components) (name : String) (schema : Value) :
    Fails IsAboutValue (modelOf components name schema) := by
  unfold modelOf
  split
  · refine (fails_typesOf _).bind fun read => ?_
    obtain ⟨types, nullable⟩ := read
    dsimp only
    split
    · exact fails_pure _
    · split
      · exact (fails_ofOption _).bind fun required => (fails_fieldsOf _ _ _ _).bind_pure _
      · exact (fails_typeOf _ _).bind_pure _
  · exact fails_pure _

theorem fails_modelsOf (all components : Schema.Components) :
    Fails IsAboutValue (modelsOf all components) := by
  induction components with
  | nil => exact fails_pure _
  | cons c rest ih => exact (fails_modelOf all c.1 c.2).bind fun model => ih.bind_pure _

/-! ### Texts -/

theorem fails_commentLines (description : Value) (indent : Nat) :
    FailsWith IsAboutValue (commentLines description indent) := by
  unfold commentLines
  split
  · exact failsWith_ok _
  · split
    · exact failsWith_ok _
    · rintro _ ⟨⟩
      exact .malformed

theorem fails_modelText (m : Model) : FailsWith IsAboutValue m.text := by
  have field (f : FieldSheet) : FailsWith IsAboutValue f.lines :=
    (fails_commentLines _ _).bind fun comment => failsWith_ok _
  have declaration (typeName : String) (d : DeclarationSheet) :
      FailsWith IsAboutValue (d.lines typeName) := by
    cases d with
    | struct fields => exact (failsWith_mapM field _).bind fun lines => failsWith_ok _
    | enum variants => exact failsWith_ok _
    | typeAlias type => exact failsWith_ok _
  exact (fails_commentLines _ _).bind fun comment =>
    (declaration _ _).bind fun lines => failsWith_ok _

/-! ### Files -/

/-- The names of the model files of a crate. The one that lists the others is a model file too. -/
def modelNames (d : Document) : List String :=
  (d.schemas.map fun c => Name.snake c.1 ++ ".rs") ++ ["mod.rs"]

/-- What the files of a crate are made from. -/
structure MadeFrom (d : Document) (models : List Model) (modules files : List OutputFile) : Prop where
  names : (models.map (·.name)).Perm (d.schemas.map (·.1))
  written : List.Forall₂ (fun m f => ∃ text, f = ⟨m.fileName ++ ".rs", text, .models⟩) models modules
  listed : ∃ listing root manifest introduction, files = modules ++
    [⟨"mod.rs", listing, .models⟩, ⟨"lib.rs", root, .project⟩, ⟨"Cargo.toml", manifest, .project⟩,
      ⟨"README.md", introduction, .project⟩]

theorem MadeFrom.namesIn_models_perm {d : Document} {models : List Model}
    {modules files : List OutputFile} (made : MadeFrom d models modules files) :
    (namesIn .models files).Perm (modelNames d) := by
  obtain ⟨names, written, listing, root, manifest, introduction, rfl⟩ := made
  have written' : (∀ f ∈ modules, f.category = .models) ∧
      modules.map (·.name) = (models.map (·.name)).map fun name => Name.snake name ++ ".rs" := by
    clear names
    induction written with
    | nil => exact ⟨nofun, rfl⟩
    | cons head tail ih =>
      obtain ⟨text, rfl⟩ := head
      exact ⟨List.forall_mem_cons.2 ⟨rfl, ih.1⟩, congrArg _ ih.2⟩
  have named : modelNames d = ((d.schemas.map (·.1)).map fun name => Name.snake name ++ ".rs") ++
      ["mod.rs"] := by
    rw [modelNames, List.map_map]
    rfl
  rw [namesIn_append, namesIn_of_category written'.1, written'.2, named]
  exact (names.map _).append_right _

/-- A file that is made from a text. -/
def fileOf (category : Category) (name : String) (text : Except Failure String) :
    Except Failure OutputFile := do
  let file : OutputFile := { name, text := ← text, category }
  file.encodable

theorem fileOf_result {category : Category} {name : String} {text : Except Failure String}
    {f : OutputFile} (ended : fileOf category name text = .ok f) :
    ∃ text, f = ⟨name, text, category⟩ := by
  obtain ⟨text, -, ended⟩ := bind_eq_ok_iff.1 ended
  exact ⟨text, encodable_eq ended⟩

theorem fails_fileOf (names : List String) (category : Category) (name : String)
    {text : Except Failure String} (h : FailsWith IsAboutValue text) :
    FailsWith (Failure.IsRightAbout names) (fileOf category name text) :=
  (h.mono IsAboutValue.isRightAbout).bind fun _ =>
    (fails_encodable _).mono Failure.isRightAbout_of_noBytes

/-- The models of a document in the order of their files. -/
def sortedModels (d : Document) : Lowering (List Model) := do
  let unsorted ← modelsOf d.schemas d.schemas
  return unsorted.mergeSort fun a b => Text.le a.fileName b.fileName

/-- What the manifest of a crate says about it. -/
def descriptionOf (info : Info) : Lowering String :=
  match info.description.present? with
  | none => pure ("Rust models for " ++ info.title)
  | some v => Report.ofOption v.str?

/-- The files of a crate for its models, made one after the other. -/
def filesOf (p : PackageSettings) (info : Info) (models : List Model) :
    Lowering (List OutputFile) := do
  let modules ← Report.ofExcept
    (models.mapM fun m => fileOf .models (m.fileName ++ ".rs") m.text)
  let listing ← Report.ofExcept (fileOf .models "mod.rs"
    (.ok (listText (models.map fun m => (m.moduleName, m.typeName)))))
  let root ← Report.ofExcept (fileOf .project "lib.rs"
    (rootText info.title info.version info.description))
  let description ← descriptionOf info
  let name := crateName p info.title
  let manifest ← Report.ofExcept (fileOf .project "Cargo.toml"
    (.ok (manifestText name info.version description)))
  let introduction ← Report.ofExcept (fileOf .project "README.md"
    (.ok (introductionText name description info.title info.version
      (models.head?.map Model.typeName))))
  let files := modules ++ [listing, root, manifest, introduction]
  Report.ofExcept (OutputFile.checkDistinct files)
  return files

theorem crateFiles_eq (p : PackageSettings) (d : Document) :
    crateFiles p d = sortedModels d >>= filesOf p d.info := by
  have known (category : Category) (name text : String) :
      fileOf category name (.ok text) = ({ name, text, category } : OutputFile).encodable := rfl
  simp only [crateFiles, sortedModels, filesOf, bind_assoc, pure_bind, known]
  refine bind_congr fun unsorted => ?_
  refine bind_congr fun modules => bind_congr fun listing => bind_congr fun root => ?_
  rw [descriptionOf]
  cases d.info.description.present? with
  | none => simp only [pure_bind]
  | some v => rfl

theorem forall₂_modules {models : List Model} {modules : List OutputFile}
    (ended : (models.mapM fun m => fileOf .models (m.fileName ++ ".rs") m.text) = .ok modules) :
    List.Forall₂ (fun m f => ∃ text, f = ⟨m.fileName ++ ".rs", text, .models⟩) models modules :=
  (forall₂_of_mapM ended).imp fun _ _ made => fileOf_result made

theorem sortedModels_names (d : Document) :
    Yields (fun ms => (ms.map (·.name)).Perm (d.schemas.map (·.1))) (sortedModels d) := by
  refine (modelsOf_names _ _).bind fun unsorted names => .pure ?_
  rw [← names]
  exact (List.mergeSort_perm _ _).map _

/-- **The files of a crate**: a module for each model, the module that lists them, and three project
files. -/
theorem crateFiles_result {p : PackageSettings} {d : Document} {files : List OutputFile}
    (ended : (crateFiles p d).result = .ok files) :
    DistinctPlaces files ∧ ∃ models modules, MadeFrom d models modules files := by
  rw [crateFiles_eq] at ended
  obtain ⟨models, sorted, ended⟩ := bind_result_eq_ok_iff.1 ended
  obtain ⟨modules, written, ended⟩ := bind_result_eq_ok_iff.1 ended
  obtain ⟨listing, listed, ended⟩ := bind_result_eq_ok_iff.1 ended
  obtain ⟨root, rooted, ended⟩ := bind_result_eq_ok_iff.1 ended
  obtain ⟨description, -, ended⟩ := bind_result_eq_ok_iff.1 ended
  obtain ⟨manifest, manifested, ended⟩ := bind_result_eq_ok_iff.1 ended
  obtain ⟨introduction, introduced, ended⟩ := bind_result_eq_ok_iff.1 ended
  obtain ⟨⟨⟩, distinct, ended⟩ := bind_result_eq_ok_iff.1 ended
  obtain rfl := Except.ok.inj ended
  obtain ⟨_, rfl⟩ := fileOf_result listed
  obtain ⟨_, rfl⟩ := fileOf_result rooted
  obtain ⟨_, rfl⟩ := fileOf_result manifested
  obtain ⟨_, rfl⟩ := fileOf_result introduced
  exact ⟨distinct_of_checkDistinct distinct, models, modules, sortedModels_names d models sorted,
    forall₂_modules written, _, _, _, _, rfl⟩

/-- A crate is refused because of a duplicate model file only where two have one name. -/
theorem fails_crateFiles (p : PackageSettings) (d : Document) :
    Fails (Failure.IsRightAbout (modelNames d)) (crateFiles p d) := by
  have file (category : Category) (name : String) {text : Except Failure String}
      (h : FailsWith IsAboutValue text) : Fails (Failure.IsRightAbout (modelNames d))
        (Report.ofExcept (fileOf category name text) : Lowering OutputFile) :=
    fails_fileOf _ category name h
  rw [crateFiles_eq]
  refine .bind_of_ok (((fails_modelsOf _ _).bind_pure _).mono IsAboutValue.isRightAbout)
    fun models sorted => ?_
  refine .bind_of_ok (fails_ofExcept (failsWith_mapM (fun m => ?_) _)) fun modules written => ?_
  · exact fails_fileOf _ .models _ (fails_modelText m)
  refine (file _ _ (failsWith_ok _)).bind_of_ok fun listing listed => ?_
  refine (file _ _ ((fails_commentLines _ _).bind fun _ => failsWith_ok _)).bind_of_ok
    fun root rooted => ?_
  refine .bind (Fails.mono (P := IsAboutValue) ?_ IsAboutValue.isRightAbout) fun description => ?_
  · unfold descriptionOf
    split
    · exact fails_pure _
    · exact fails_ofOption _
  refine (file _ _ (failsWith_ok _)).bind_of_ok fun manifest manifested => ?_
  refine (file _ _ (failsWith_ok _)).bind_of_ok fun introduction introduced => ?_
  obtain ⟨_, rfl⟩ := fileOf_result listed
  obtain ⟨_, rfl⟩ := fileOf_result rooted
  obtain ⟨_, rfl⟩ := fileOf_result manifested
  obtain ⟨_, rfl⟩ := fileOf_result introduced
  have names := sortedModels_names d models sorted
  have made := forall₂_modules written
  refine .bind_pure (fails_ofExcept ?_) _
  refine (fails_checkDistinct _).mono fun e right duplicate distinct => right duplicate ?_
  exact (MadeFrom.namesIn_models_perm ⟨names, made, _, _, _, _, rfl⟩).nodup_iff.2 distinct

/-- **The model files of a crate** have the names of the modules for the components, and that of the
module that lists them. -/
theorem crateFiles_namesModels (p : PackageSettings) (d : Document) :
    NamesModels (modelNames d) (crateFiles p d) where
  made files ended := by
    obtain ⟨distinct, models, modules, made⟩ := crateFiles_result ended
    have names := made.namesIn_models_perm
    exact ⟨names, names.nodup_iff.1 (OutputFile.nodup_namesIn distinct .models)⟩
  refused := fails_crateFiles p d

end ClientGen.Crate
