import ClientGen.Package.TypeScript
import ClientGen.Proofs.Lists.Lookup
import ClientGen.Proofs.Lists.Pointwise
import ClientGen.Proofs.Report.Matching
import ClientGen.Proofs.Schema.References
import ClientGen.Proofs.Text.Order

/-!
# The files of a client

What the files of a client are made from is said once (`typeScriptFiles_result`): the declarations
of the components, the classes for the tags, the two modules that every client has, and project
files, no two of which take one place. Each component has a declaration under the name of its type
(`declarationsOf_declares`), and each declared name has a module (`lookup_modulesOf`).
-/

namespace ClientGen

/-! ## Lists -/

theorem nodup_eraseDups : (names : List String) → names.eraseDups.Nodup
  | [] => List.nodup_nil
  | name :: rest => by
    rw [List.eraseDups_cons, List.nodup_cons, List.mem_eraseDups]
    exact ⟨by simp, nodup_eraseDups (rest.filter fun other => !other == name)⟩
termination_by names => names.length
decreasing_by exact Nat.lt_succ_of_le (List.length_filter_le _ _)

theorem mem_sortedNames {names : List String} {name : String} :
    name ∈ sortedNames names ↔ name ∈ names := by
  unfold sortedNames
  rw [List.mem_mergeSort, List.mem_eraseDups]

theorem nodup_sortedNames (names : List String) : (sortedNames names).Nodup := by
  unfold sortedNames
  exact (List.mergeSort_perm _ _).nodup_iff.2 (nodup_eraseDups names)

/-- Of sorted names, each comes before those behind it. -/
theorem pairwise_sortedNames (names : List String) :
    (sortedNames names).Pairwise fun s t => Text.lt s t = true := by
  have sorted := @List.pairwise_mergeSort String Text.le (fun _ _ _ => Text.le_trans) Text.le_total
    names.eraseDups
  refine (sorted.and (nodup_sortedNames names)).imp ?_
  intro s t both
  obtain ⟨before, other⟩ := both
  unfold Text.le at before
  unfold Text.lt
  cases order : Text.compare s t with
  | lt => rfl
  | eq => exact absurd (Text.compare_eq_iff_eq.1 order) other
  | gt =>
    rw [order] at before
    cases before

namespace Package

open Report (Yields bind_result_eq_ok_iff)
open Schema (Scope)

/-! ## Declarations and their modules -/

theorem declareAll_result {scope : Scope} {components : Schema.Components}
    {all : List Declaration} (ended : (declareAll scope components).result = .ok all) :
    List.Forall₂ (fun c decl => (Schema.declare scope [] c.1 c.2).result = .ok decl)
      components all := by
  induction components generalizing all with
  | nil =>
    cases ended
    exact .nil
  | cons c rest ih =>
    obtain ⟨declared, head, ended⟩ := bind_result_eq_ok_iff.1 ended
    obtain ⟨others, tail, ended⟩ := bind_result_eq_ok_iff.1 ended
    cases ended
    exact .cons head (ih tail)

/-- Whether declarations are those of the components of a document. -/
structure Declares (d : Document) (declarations : List Declaration) : Prop where
  /-- Every declaration is that of a component. -/
  component : ∀ decl ∈ declarations, ∃ c ∈ d.schemas,
    (Schema.declare (scopeOf d) [] c.1 c.2).result = .ok decl
  /-- The names are those of the types of all components, in some order. -/
  names : (declarations.map (·.name)).Perm (scopeOf d).typeNames

theorem declarationsOf_declares (d : Document) :
    Yields (Declares d) (declarationsOf d (scopeOf d)) := by
  intro declarations ended
  obtain ⟨all, made, sorted⟩ := bind_result_eq_ok_iff.1 ended
  cases sorted
  have declared := declareAll_result made
  refine ⟨fun decl mem => ?_, ?_⟩
  · obtain ⟨c, member, made⟩ := exists_of_forall₂_right declared (List.mem_mergeSort.1 mem)
    exact ⟨c, member, made⟩
  · have names : all.map (·.name) = (scopeOf d).typeNames := by
      have general : ∀ {components : Schema.Components} {all : List Declaration},
          List.Forall₂ (fun c decl => (Schema.declare (scopeOf d) [] c.1 c.2).result = .ok decl)
            components all →
          all.map (·.name) = components.map fun c => Name.typeName c.1 := by
        intro components all declared
        induction declared with
        | nil => rfl
        | @cons c decl _ _ head _ ih =>
          have named := (Schema.declare_declaredAs (scopeOf d) [] c.1 c.2 decl head).name
          rw [List.map_cons, List.map_cons, named, ih]
      exact general declared
    rw [← names]
    exact (List.mergeSort_perm _ _).map _

theorem lookup_modulesOf (naming : Name.Convention) (declarations : List Declaration)
    (name : String) :
    (modulesOf naming declarations).lookup name =
      if name ∈ declarations.map (·.name) then some (naming.apply name) else none := by
  have general (known : List (String × String)) :
      (declarations.foldl (fun known decl =>
        Schema.setPair decl.name (naming.apply decl.name) known) known).lookup name =
      if name ∈ declarations.map (·.name) then some (naming.apply name)
        else known.lookup name := by
    induction declarations generalizing known with
    | nil => simp
    | cons decl rest ih =>
      rw [List.foldl_cons, ih, lookup_setPair, List.map_cons]
      by_cases later : name ∈ rest.map (·.name)
      · rw [if_pos later, if_pos (List.mem_cons_of_mem _ later)]
      · rw [if_neg later]
        by_cases here : name = decl.name
        · rw [if_pos here, if_pos (here ▸ List.mem_cons_self), here]
        · rw [if_neg here, if_neg (by simp only [List.mem_cons, here, later, or_self, not_false_iff])]
  exact general []

/-! ## Distinct places -/

/-- No two of some files take one place. -/
def DistinctPlaces (files : List OutputFile) : Prop :=
  files.Pairwise fun f g => f.category = g.category → f.name ≠ g.name

theorem clashes_iff (f g : OutputFile) :
    f.clashes g = true ↔ f.category = g.category ∧ f.name = g.name := by
  simp [OutputFile.clashes]

theorem distinct_of_checkDistinctAfter {seen files : List OutputFile}
    (ended : OutputFile.checkDistinctAfter seen files = .ok ()) :
    DistinctPlaces files ∧ ∀ f ∈ files, ∀ g ∈ seen, f.clashes g = false := by
  induction files generalizing seen with
  | nil => exact ⟨.nil, nofun⟩
  | cons f rest ih =>
    unfold OutputFile.checkDistinctAfter at ended
    split at ended
    · cases ended
    · next free =>
      obtain ⟨distinct, apart⟩ := ih ended
      have first : ∀ g ∈ seen, f.clashes g = false := by
        simpa using free
      refine ⟨List.pairwise_cons.2 ⟨fun g mem same named => ?_, distinct⟩, ?_⟩
      · have clash := (clashes_iff g f).2 ⟨same.symm, named.symm⟩
        rw [apart g mem f List.mem_cons_self] at clash
        cases clash
      · intro g mem h member
        rcases List.mem_cons.1 mem with rfl | mem
        · exact first h member
        · exact apart g mem h (List.mem_cons_of_mem _ member)

theorem distinct_of_checkDistinct {files : List OutputFile}
    (ended : OutputFile.checkDistinct files = .ok ()) : DistinctPlaces files :=
  (distinct_of_checkDistinctAfter ended).1

/-! ## All files -/

theorem encodable_eq {f g : OutputFile} (ended : f.encodable = .ok g) : g = f := by
  unfold OutputFile.encodable at ended
  split at ended
  · exact (Except.ok.inj ended).symm
  · cases ended

theorem mapM_encodable_eq {α : Type} (file : α → OutputFile) {as : List α}
    {files : List OutputFile} (ended : (as.mapM fun a => (file a).encodable) = .ok files) :
    files = as.map file := by
  have all := forall₂_of_mapM ended
  clear ended
  induction all with
  | nil => rfl
  | cons head tail ih => rw [List.map_cons, encodable_eq head, ih]

/-- What the file of a class is. -/
theorem classFile_result {margin : Margin} {c : Client.Class} {f : OutputFile}
    (ended : classFile margin c = .ok f) :
    ∃ text, c.text margin = .ok text ∧ f = { name := c.name ++ ".ts", text, category := .apis } := by
  obtain ⟨text, written, ended⟩ := bind_eq_ok_iff.1 ended
  exact ⟨text, written, encodable_eq ended⟩

theorem classesFor_result {scope : Scope} {width : Int} {security : List Value}
    {modules : List (String × String)} {tagged : List (String × List Operation)}
    {classes : List Client.Class}
    (ended : (Client.classesFor scope width security modules tagged).result = .ok classes) :
    List.Forall₂ (fun t c =>
      (Client.classFor scope width security modules t.1 t.2).result = .ok c) tagged classes := by
  induction tagged generalizing classes with
  | nil =>
    cases ended
    exact .nil
  | cons t rest ih =>
    obtain ⟨c, head, ended⟩ := bind_result_eq_ok_iff.1 ended
    obtain ⟨others, tail, ended⟩ := bind_result_eq_ok_iff.1 ended
    cases ended
    exact .cons head (ih tail)

/-- The names of project files. -/
def projectNames : List String :=
  ["package.json", "tsconfig.json", "tsconfig.esm.json", "README.md"]

theorem mem_projectFiles {p : PackageSettings} {d : Document} {classes : List Client.Class}
    {files : List OutputFile} (ended : projectFiles p d classes = .ok files) :
    ∀ f ∈ files, f.category = .project ∧ f.name ∈ projectNames := by
  obtain ⟨package, -, ended⟩ := bind_eq_ok_iff.1 ended
  obtain ⟨compiler, -, ended⟩ := bind_eq_ok_iff.1 ended
  obtain ⟨esm, -, ended⟩ := bind_eq_ok_iff.1 ended
  obtain rfl := Except.ok.inj ended
  intro f mem
  split at mem
  all_goals
    simp only [List.mem_append, List.mem_cons, List.not_mem_nil, or_false] at mem
    rcases mem with ((rfl | rfl) | rfl) | rfl <;> exact ⟨rfl, by simp [projectNames]⟩

/-- The module of each declaration in a client. -/
def modulesIn (settings : Settings) (declarations : List Declaration) : List (String × String) :=
  modulesOf settings.files.naming declarations

/-- The file of a declaration in a client. -/
def fileOf (settings : Settings) (declarations : List Declaration) (decl : Declaration) :
    OutputFile :=
  modelFile settings.margin.available (modulesIn settings declarations) decl

/-- What the files of a client are made from. -/
structure MadeFrom (settings : Settings) (d : Document) (declarations : List Declaration)
    (classes : List Client.Class) (classFiles project files : List OutputFile) : Prop where
  declares : Declares d declarations
  built : List.Forall₂ (fun t c => (Client.classFor (scopeOf d) settings.margin.available
    d.security (modulesIn settings declarations) t.1 t.2).result = .ok c)
    (Client.operationsByTag d) classes
  written : List.Forall₂ (fun c f => classFile settings.margin c = .ok f) classes classFiles
  others : ∀ f ∈ project, f.category = .project
  listed : files = declarations.map (fileOf settings declarations) ++ classFiles ++
    [runtimeFile d, indexFile (declarations.map (fileOf settings declarations)) classFiles] ++
    project
  distinct : DistinctPlaces files

/-- What the files of a client are made from, and the names of its project files. -/
theorem typeScriptFiles_made {settings : Settings} {d : Document} {files : List OutputFile}
    (ended : (typeScriptFiles settings d).result = .ok files) :
    ∃ declarations classes classFiles project,
      MadeFrom settings d declarations classes classFiles project files ∧
        ∀ f ∈ project, f.name ∈ projectNames := by
  obtain ⟨declarations, declared, ended⟩ := bind_result_eq_ok_iff.1 ended
  obtain ⟨models, modelled, ended⟩ := bind_result_eq_ok_iff.1 ended
  obtain ⟨classes, built, ended⟩ := bind_result_eq_ok_iff.1 ended
  obtain ⟨classFiles, written, ended⟩ := bind_result_eq_ok_iff.1 ended
  obtain ⟨runtime, encoded, ended⟩ := bind_result_eq_ok_iff.1 ended
  rw [Report.result_ofExcept] at modelled written encoded
  have made := mapM_encodable_eq _ modelled
  obtain rfl := encodable_eq encoded
  have finished (project : List OutputFile) (all : ∀ f ∈ project, f.category = .project)
      (ended : (do
        Report.ofExcept (OutputFile.checkDistinct
          (models ++ classFiles ++ [runtimeFile d, indexFile models classFiles] ++ project))
        pure (models ++ classFiles ++ [runtimeFile d, indexFile models classFiles] ++ project) :
          Schema.Lowering (List OutputFile)).result = .ok files) :
      MadeFrom settings d declarations classes classFiles project files := by
    obtain ⟨⟨⟩, distinct, ended⟩ := bind_result_eq_ok_iff.1 ended
    obtain rfl := Except.ok.inj ended
    exact {
      declares := declarationsOf_declares d declarations declared
      built := classesFor_result built
      written := forall₂_of_mapM written
      others := all
      listed := by
        rw [made]
        rfl
      distinct := distinct_of_checkDistinct distinct }
  refine ⟨declarations, classes, classFiles, ?_⟩
  split at ended
  · obtain ⟨listed, rendered, ended⟩ := bind_result_eq_ok_iff.1 ended
    obtain ⟨project, kept, ended⟩ := bind_result_eq_ok_iff.1 ended
    have same : project = listed := by
      rw [mapM_encodable_eq id kept, List.map_id]
    have known := mem_projectFiles (Report.ofText_result_eq_ok_iff.1 rendered)
    rw [← same] at known
    exact ⟨project, finished project (fun f mem => (known f mem).1) ended,
      fun f mem => (known f mem).2⟩
  · obtain ⟨project, none, ended⟩ := bind_result_eq_ok_iff.1 ended
    cases none
    exact ⟨[], finished [] nofun ended, nofun⟩

/-- **The files of a client**: one for each declaration, one for each class, the run-time module, the
index, and project files. -/
theorem typeScriptFiles_result {settings : Settings} {d : Document} {files : List OutputFile}
    (ended : (typeScriptFiles settings d).result = .ok files) :
    ∃ declarations classes classFiles project,
      MadeFrom settings d declarations classes classFiles project files := by
  obtain ⟨declarations, classes, classFiles, project, made, -⟩ := typeScriptFiles_made ended
  exact ⟨declarations, classes, classFiles, project, made⟩

/-! ## Distinct names -/

section Distinct

variable {settings : Settings} {d : Document} {declarations : List Declaration}
  {classes : List Client.Class} {classFiles project files : List OutputFile}
  (made : MadeFrom settings d declarations classes classFiles project files)

include made

/-- No two declarations have one file. -/
theorem nodup_fileNames :
    (declarations.map fun decl => (fileOf settings declarations decl).name).Nodup := by
  have inside : (declarations.map (fileOf settings declarations)).Sublist files := by
    rw [made.listed, List.append_assoc, List.append_assoc]
    exact List.sublist_append_left _ _
  have distinct := List.Pairwise.sublist inside made.distinct
  rw [List.pairwise_map] at distinct
  exact List.pairwise_map.2 (distinct.imp fun h => h rfl)

/-- No two declarations have one name. -/
theorem nodup_names : (declarations.map (·.name)).Nodup := by
  refine List.pairwise_map.2 ((List.pairwise_map.1 (nodup_fileNames made)).imp
    fun {a b} ne same => ne ?_)
  change ((modulesIn settings declarations).lookup a.name).getD "" ++ ".ts" =
    ((modulesIn settings declarations).lookup b.name).getD "" ++ ".ts"
  rw [same]

theorem classFiles_eq :
    (∀ f ∈ classFiles, f.category = .apis) ∧
      classFiles.map (·.name) = classes.map fun c => c.name ++ ".ts" := by
  have written := made.written
  clear made
  induction written with
  | nil => exact ⟨nofun, rfl⟩
  | cons head tail ih =>
    obtain ⟨text, -, rfl⟩ := classFile_result head
    exact ⟨List.forall_mem_cons.2 ⟨rfl, ih.1⟩, by rw [List.map_cons, List.map_cons, ih.2]⟩

/-- No two classes have one name. -/
theorem nodup_classNames : (classes.map (·.name)).Nodup := by
  obtain ⟨category, named⟩ := classFiles_eq made
  have inside : classFiles.Sublist files := by
    rw [made.listed, List.append_assoc, List.append_assoc]
    exact (List.sublist_append_left _ _).trans (List.sublist_append_right _ _)
  have distinct : (classFiles.map (·.name)).Nodup := by
    refine List.pairwise_map.2 ((List.Pairwise.sublist inside made.distinct).imp_of_mem ?_)
    intro f g mem mem' h
    exact h ((category f mem).trans (category g mem').symm)
  have behind : classes.map (fun c => c.name ++ ".ts") =
      (classes.map (·.name)).map fun name => name ++ ".ts" := by
    rw [List.map_map]
    rfl
  rw [named, behind] at distinct
  exact List.Nodup.of_map _ distinct

end Distinct

end Package

end ClientGen
