import ClientGen.Proofs.Package.Files
import ClientGen.Proofs.Report.Failing

/-!
# Duplicate files

Files of one category have distinct names if the check of a backend lets them pass, and it stops
them only where they have not (`fails_checkDistinct`). So what a backend makes of the model files is
known from their names (`NamesModels`): if it ends in files, these have the names, which are
distinct, and it fails because of a duplicate model file only where they are not.
-/

namespace ClientGen

open Report (Fails)

theorem Category.label_inj {c c' : Category} (same : c.label = c'.label) : c = c' := by
  cases c <;> cases c' <;> first | rfl | exact absurd same (by decide)

/-- The names of the files of a category. -/
def OutputFile.namesIn (c : Category) (files : List OutputFile) : List String :=
  (files.filter fun f => f.category = c).map (·.name)

/-- Whether a failure is that two files of a category have one name. -/
def Failure.IsDuplicate (c : Category) (e : Failure) : Prop :=
  ∃ element, e = .emission element (.duplicateFile c.label)

/-- Whether a failure is right about model files with these names: if it is that two of them have one
name, two of them have. -/
def Failure.IsRightAbout (names : List String) (e : Failure) : Prop :=
  e.IsDuplicate .models → ¬ names.Nodup

theorem Failure.IsAboutValue.isRightAbout {names : List String} (e : Failure)
    (h : e.IsAboutValue) : e.IsRightAbout names := by
  rintro ⟨element, rfl⟩
  cases h

theorem Failure.isRightAbout_of_noBytes {names : List String} (e : Failure)
    (h : e = .unencodable) : e.IsRightAbout names := by
  rintro ⟨element, rfl⟩
  cases h

namespace OutputFile

theorem namesIn_append (c : Category) (files more : List OutputFile) :
    namesIn c (files ++ more) = namesIn c files ++ namesIn c more := by
  rw [namesIn, List.filter_append, List.map_append]
  rfl

theorem namesIn_of_category {c : Category} {files : List OutputFile}
    (all : ∀ f ∈ files, f.category = c) : namesIn c files = files.map (·.name) := by
  rw [namesIn, List.filter_eq_self.2 fun f mem => decide_eq_true (all f mem)]

theorem namesIn_of_category_ne {c : Category} {files : List OutputFile}
    (other : ∀ f ∈ files, f.category ≠ c) : namesIn c files = [] := by
  rw [namesIn, List.filter_eq_nil_iff.2 fun f mem => by simpa using other f mem, List.map_nil]

theorem nodup_namesIn {files : List OutputFile} (distinct : Package.DistinctPlaces files)
    (c : Category) : (namesIn c files).Nodup := by
  refine List.pairwise_map.2 ((distinct.filter _).imp_of_mem fun {f g} mem mem' apart => ?_)
  have here := (List.mem_filter.1 mem).2
  have here' := (List.mem_filter.1 mem').2
  rw [decide_eq_true_eq] at here here'
  exact apart (here.trans here'.symm)

/-- The check stops files because of a duplicate model file only where two have one name. -/
theorem fails_checkDistinctAfter (seen files : List OutputFile) :
    FailsWith (Failure.IsRightAbout (namesIn .models (seen ++ files)))
      (checkDistinctAfter seen files) := by
  induction files generalizing seen with
  | nil => exact failsWith_ok _
  | cons f rest ih =>
    unfold checkDistinctAfter
    split
    · next clash =>
      rintro _ ⟨⟩ ⟨element, same⟩ distinct
      have here : f.category = .models :=
        Category.label_inj (EmissionFault.duplicateFile.inj (Failure.emission.inj same).2)
      obtain ⟨g, mem, clashes⟩ := List.any_eq_true.1 clash
      obtain ⟨category, name⟩ := (Package.clashes_iff f g).1 clashes
      have there : g.category = .models := category.symm.trans here
      rw [namesIn_append] at distinct
      refine List.disjoint_of_nodup_append distinct (a := f.name) ?_ ?_
      · exact List.mem_map.2 ⟨g, List.mem_filter.2 ⟨mem, decide_eq_true there⟩, name.symm⟩
      · exact List.mem_map.2
          ⟨f, List.mem_filter.2 ⟨List.mem_cons_self, decide_eq_true here⟩, rfl⟩
    · refine (ih (f :: seen)).mono fun e stops duplicate distinct => stops duplicate ?_
      have moved : (seen ++ f :: rest).Perm (f :: seen ++ rest) := List.perm_middle
      exact ((moved.filter _).map _).nodup_iff.1 distinct

theorem fails_checkDistinct (files : List OutputFile) :
    FailsWith (Failure.IsRightAbout (namesIn .models files)) (checkDistinct files) :=
  fails_checkDistinctAfter [] files

theorem fails_encodable (f : OutputFile) : FailsWith (· = .unencodable) f.encodable := by
  unfold encodable
  split
  · exact failsWith_ok _
  · rintro _ ⟨⟩
    rfl

end OutputFile

/-- Whether the model files that a backend makes have these names. If it ends in files, they have,
and the names are distinct; if it fails because two model files have one name, the names are not. -/
structure NamesModels {ν : Type} (names : List String) (r : Report ν (List OutputFile)) : Prop where
  made : ∀ files, r.result = .ok files → (OutputFile.namesIn .models files).Perm names ∧ names.Nodup
  refused : Fails (Failure.IsRightAbout names) r

end ClientGen
