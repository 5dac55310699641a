import ClientGen.Proofs.Document.Prepared
import ClientGen.Proofs.Package.Files
import ClientGen.Proofs.Package.Runtime

/-!
# Clients without classes

A document without operations has a client as soon as its models can be declared, their texts are
plain and no two of them take one place (`typeScriptFiles_of_plain`). For a document of component
schemas alone, what is left of this is about the models (`typeScriptFiles_ofSchemas`).
-/

namespace ClientGen.Package

open Document (titledSchemas prepare_titledSchemas)
open Report (bind_result_eq_ok_iff bind_result_of_ok bind_result_of_error)

theorem mapM_encodable_of_plain {α : Type} (file : α → OutputFile) {as : List α}
    (plain : ∀ a ∈ as, IsPlain (file a).text) :
    (as.mapM fun a => (file a).encodable) = .ok (as.map file) := by
  induction as with
  | nil => rfl
  | cons a rest ih =>
    obtain ⟨first, others⟩ := List.forall_mem_cons.1 plain
    rw [List.mapM_cons, encodable_of_isPlain first, ih others]
    rfl

theorem operationsByTag_of_none {d : Document} (none : d.operations = []) :
    Client.operationsByTag d = [] := by
  simp [Client.operationsByTag, none, sortedNames]

theorem isPlain_shortNotice : IsPlain Source.shortNotice := isPlain_ofList (by decide)

/-- The file of a model is plain if its imports and its declaration are. -/
theorem isPlain_modelFile {width : Int} {modules : List (String × String)} {decl : Declaration}
    (imports : ∀ i ∈ importsOf modules decl, IsPlain (i.text width))
    (own : IsPlain (decl.text width)) : IsPlain (modelFile width modules decl).text := by
  obtain ⟨one, two⟩ := isPlain_breaks
  have lines : ∀ line ∈ (importsOf modules decl).map (·.text width), IsPlain line := by
    intro line mem
    obtain ⟨i, listed, rfl⟩ := List.mem_map.1 mem
    exact imports i listed
  refine (two.intercalate fun part mem => ?_).append one
  rcases List.mem_append.1 mem with mem | mem
  · rcases List.mem_append.1 mem with mem | mem
    · rw [List.mem_singleton.1 mem]
      exact isPlain_shortNotice
    · split at mem
      · cases mem
      · rw [List.mem_singleton.1 mem]
        exact one.intercalate lines
  · rw [List.mem_singleton.1 mem]
    exact own

/-- **A client without classes** is made from a document without operations whose texts are plain, if
no two of its files take one place. -/
theorem typeScriptFiles_of_plain {settings : Settings} {d : Document}
    {declarations : List Declaration} (bare : settings.package.enabled = false)
    (declared : (declarationsOf d (scopeOf d)).result = .ok declarations)
    (models : ∀ decl ∈ declarations, IsPlain (fileOf settings declarations decl).text)
    (none : d.operations = [])
    (banner : IsPlain (Source.banner d.info.title d.info.version .slashes))
    (server : IsPlain (basePathLine d.basePath))
    {files : List OutputFile}
    (listed : files = declarations.map (fileOf settings declarations) ++
      [runtimeFile d, indexFile (declarations.map (fileOf settings declarations)) []]) :
    (typeScriptFiles settings d).result = (OutputFile.checkDistinct files).map fun _ => files := by
  have classes : (Client.apiClasses d (scopeOf d) settings.margin.available
      (modulesIn settings declarations)).result = .ok [] := by
    rw [Client.apiClasses, operationsByTag_of_none none]
    rfl
  have runtime : (Report.ofExcept (runtimeFile d).encodable : Schema.Lowering OutputFile).result =
      .ok (runtimeFile d) := by
    rw [Report.result_ofExcept, encodable_runtimeFile banner server]
  have same : files = declarations.map (fileOf settings declarations) ++ [] ++
      [runtimeFile d, indexFile (declarations.map (fileOf settings declarations)) []] ++ [] := by
    rw [listed, List.append_nil, List.append_nil]
  unfold typeScriptFiles
  rw [bare]
  refine (bind_result_of_ok declared).trans ?_
  refine (bind_result_of_ok
    (mapM_encodable_of_plain (fileOf settings declarations) models)).trans ?_
  refine (bind_result_of_ok classes).trans ((bind_result_of_ok (a := []) rfl).trans ?_)
  refine (bind_result_of_ok runtime).trans ((bind_result_of_ok (a := []) rfl).trans ?_)
  rw [same]
  cases ended : OutputFile.checkDistinct (declarations.map (fileOf settings declarations) ++ [] ++
    [runtimeFile d, indexFile (declarations.map (fileOf settings declarations)) []] ++ []) with
  | ok _ => exact bind_result_of_ok ended
  | error e => exact bind_result_of_error ended

/-! ## Documents of schemas -/

/-- A banner is plain if the lines for the title are. -/
theorem isPlain_banner {title version : String} (heading : IsPlain ("// " ++ title))
    (versioned : IsPlain (Text.trimEnd ("// " ++ title ++ " " ++ version))) :
    IsPlain (Source.banner title version .slashes) := by
  obtain ⟨one, -⟩ := isPlain_breaks
  have mark : IsPlain "//" := isPlain_ofList (by decide)
  have space : IsPlain " " := isPlain_ofList (by decide)
  have notice : ∀ line ∈ Source.notice, IsPlain line := by
    unfold Source.notice
    simp only [List.forall_mem_cons]
    exact ⟨isPlain_ofList (by decide), isPlain_ofList (by decide),
      isPlain_ofList (by decide), nofun⟩
  have opens : "//" ++ " " = "// " := rfl
  refine one.intercalate fun line mem => ?_
  rcases List.mem_append.1 mem with mem | mem
  · obtain ⟨text, listed, rfl⟩ := List.mem_map.1 mem
    exact (mark.append space).append (notice text listed)
  · dsimp only [Source.CommentStyle.mark] at mem
    rw [opens] at mem
    split at mem
    · cases mem
    · split at mem
      · simp only [List.mem_cons, List.not_mem_nil, or_false] at mem
        rcases mem with rfl | rfl
        · exact mark
        · exact heading
      · simp only [List.mem_cons, List.not_mem_nil, or_false] at mem
        rcases mem with rfl | rfl
        · exact mark
        · exact versioned

theorem isPlain_untitled : IsPlain (Source.banner "" "" .slashes) := by
  refine isPlain_banner ?_ ?_ <;> · unfold IsPlain; decide

theorem isPlain_local : IsPlain (basePathLine "http://localhost") := by
  have opens : IsPlain "export const BASE_PATH = " := isPlain_ofList (by decide)
  have server : IsPlain (Source.singleQuoted "http://localhost") := by
    unfold IsPlain
    decide
  have closes : IsPlain ".replace(/\\/+$/, '');" := isPlain_ofList (by decide)
  exact (opens.append server).append closes

/-- **The client of component schemas** whose models are plain. -/
theorem typeScriptFiles_ofSchemas {settings : Settings} {schemas : Schema.Components}
    {declarations : List Declaration} (bare : settings.package.enabled = false)
    (declared : (declarationsOf (.ofSchemas schemas) (scopeOf (.ofSchemas schemas))).result =
      .ok declarations)
    (models : ∀ decl ∈ declarations, IsPlain (fileOf settings declarations decl).text)
    {files : List OutputFile}
    (listed : files = declarations.map (fileOf settings declarations) ++
      [runtimeFile (.ofSchemas schemas),
        indexFile (declarations.map (fileOf settings declarations)) []])
    (distinct : OutputFile.checkDistinct files = .ok ()) :
    (typeScriptFiles settings (.ofSchemas schemas)).result = .ok files :=
  (typeScriptFiles_of_plain bare declared models rfl isPlain_untitled isPlain_local listed).trans
    (congrArg _ distinct)

/-- Pets and lists of them. -/
def petSchemas : Schema.Components := [
  ("litter", .map [(.str "type", .str "array"),
    (.str "items", .map [(.str "$ref", .str (Schema.refPrefix ++ "pet"))])]),
  ("pet", .map [(.str "type", .str "string")])]

/-- The models of `petSchemas`. -/
def petModels : List Declaration := [
  .typeAlias { name := "Litter", type := .array (.named "Pet") },
  .typeAlias { name := "Pet", type := .primitive .string }]

theorem declarationsOf_petSchemas :
    (declarationsOf (.ofSchemas petSchemas) (scopeOf (.ofSchemas petSchemas))).result =
      .ok petModels := by
  have sorted : petModels.mergeSort (fun a b => Text.le a.name b.name) = petModels :=
    List.mergeSort_of_pairwise (by decide)
  exact bind_result_eq_ok_iff.2
    ⟨petModels, by with_unfolding_all rfl, congrArg Except.ok sorted⟩

theorem isPlain_petModels : ∀ decl ∈ petModels, IsPlain (fileOf {} petModels decl).text := by
  have parts : ∀ decl ∈ petModels,
      (∀ i ∈ importsOf (modulesIn {} petModels) decl, IsPlain (i.text 80)) ∧
        IsPlain (decl.text 80) := by
    unfold IsPlain
    decide +kernel
  intro decl listed
  exact isPlain_modelFile (parts decl listed).1 (parts decl listed).2

theorem exists_typeScriptFiles_petSchemas :
    ∃ files, (typeScriptFiles {} (.ofSchemas petSchemas)).result = .ok files :=
  ⟨_, typeScriptFiles_ofSchemas rfl declarationsOf_petSchemas isPlain_petModels rfl
    (by decide +kernel)⟩

/-! ### The same, with a title -/

theorem declarationsOf_titledPets :
    (declarationsOf (titledSchemas petSchemas).renamed.normalizedSchemas
      (scopeOf (titledSchemas petSchemas).renamed.normalizedSchemas)).result = .ok petModels := by
  have sorted : petModels.mergeSort (fun a b => Text.le a.name b.name) = petModels :=
    List.mergeSort_of_pairwise (by decide)
  refine bind_result_eq_ok_iff.2 ⟨petModels, ?_, congrArg Except.ok sorted⟩
  with_unfolding_all rfl

theorem isPlain_titled : IsPlain (Source.banner "Pets" "1" .slashes) := by
  refine isPlain_banner ?_ ?_ <;> · unfold IsPlain; decide

theorem prepare_titledPets : (titledSchemas petSchemas).prepare.result =
    .ok (titledSchemas petSchemas).renamed.normalizedSchemas :=
  prepare_titledSchemas ⟨by decide +kernel, by decide +kernel, by decide +kernel⟩
    (by decide +kernel) (by decide +kernel) (by decide +kernel)

/-- The files of the client of pets. -/
def petFiles : List OutputFile :=
  petModels.map (fileOf {} petModels) ++
    [runtimeFile (titledSchemas petSchemas), indexFile (petModels.map (fileOf {} petModels)) []]

/-- **The client of pets**, in a document that is prepared. -/
theorem typeScriptFiles_titledPets :
    (typeScriptFiles {} (titledSchemas petSchemas).renamed.normalizedSchemas).result =
      .ok petFiles := by
  have distinct : OutputFile.checkDistinct petFiles = .ok () := by decide +kernel
  refine (typeScriptFiles_of_plain rfl declarationsOf_titledPets isPlain_petModels rfl
    isPlain_titled isPlain_local rfl).trans ?_
  exact congrArg (Except.map fun _ => petFiles) distinct

end ClientGen.Package
