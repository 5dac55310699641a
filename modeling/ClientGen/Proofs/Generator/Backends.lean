import ClientGen.Generator.Run
import ClientGen.Proofs.Crate.Files
import ClientGen.Proofs.Files.Written
import ClientGen.Proofs.Package.Closed

/-!
# Backends and the keys that ask for them

The files of both languages have plain names, and no two of one category have the same, so that each
has a place of its own (`filesOfCopy_placeable`). Keys are answered by one backend for each language
(`answers_of_select`), unless one of them is unknown or there is none (`exists_get_of_select`).
-/

namespace ClientGen

open Name (isFileName isFileName_append isNameChar)
open Package (DistinctPlaces)
open Report (bind_result_eq_ok_iff)

/-! ### Files that can be placed -/

/-- Whether files have plain names, of which no two in one category are the same. -/
structure ArePlaceable (files : List OutputFile) : Prop where
  named : ∀ f ∈ files, isFileName f.name = true
  distinct : DistinctPlaces files

theorem ArePlaceable.nodup_relativePaths {files : List OutputFile} (h : ArePlaceable files) :
    (files.map (·.relativePath)).Nodup := by
  refine List.pairwise_map.2 (h.distinct.imp_of_mem fun {f g} mem mem' apart same => ?_)
  obtain ⟨category, name⟩ :=
    OutputFile.eq_of_relativePath_eq (h.named f mem) (h.named g mem') same
  exact apart category name

theorem ArePlaceable.nodup_placed {files : List OutputFile} (h : ArePlaceable files)
    (directory : Path) : ((placed directory files).map (·.1)).Nodup := by
  have paths : (placed directory files).map (·.1) =
      (files.map (·.relativePath)).map directory.join := by
    simp only [placed, List.map_map, Function.comp_def]
  rw [paths]
  refine h.nodup_relativePaths.map_on fun p mem q mem' same => ?_
  obtain ⟨f, listed, rfl⟩ := List.mem_map.1 mem
  obtain ⟨g, listed', rfl⟩ := List.mem_map.1 mem'
  exact (Path.join_right_inj (OutputFile.isPlain_relativePath (h.named f listed))
    (OutputFile.isPlain_relativePath (h.named g listed'))).1 same

/-- Files that can be placed are all kept. -/
theorem ArePlaceable.outputPaths_eq {files : List OutputFile} (h : ArePlaceable files)
    (directory : Path) : outputPaths directory files = placed directory files := by
  have distinct : ((([] : PathTexts) ++ placed directory files).map (·.1)).Nodup :=
    h.nodup_placed directory
  exact PathTexts.update_of_nodup distinct

theorem Package.typeScriptFiles_placeable {settings : Settings} {d : Document}
    {files : List OutputFile} (ended : (typeScriptFiles settings d).result = .ok files) :
    ArePlaceable files := by
  obtain ⟨declarations, classes, classFiles, project, made, known⟩ := typeScriptFiles_made ended
  refine ⟨fun f mem => ?_, made.distinct⟩
  rw [made.listed, List.mem_append, List.mem_append, List.mem_append] at mem
  rcases mem with ((model | api) | fixed) | other
  · obtain ⟨decl, declared, rfl⟩ := List.mem_map.1 model
    rw [fileOf_name declared]
    exact isFileName_append (Name.isNameChar_apply _ _) (by decide)
  · obtain ⟨c, -, named, chars⟩ := exists_class made api
    rw [named]
    exact isFileName_append chars (by decide)
  · have fixedNames : ∀ name ∈ ["runtime.ts", "index.ts"], isFileName name = true := by decide
    refine fixedNames f.name ?_
    rw [List.mem_cons, List.mem_singleton] at fixed
    rcases fixed with rfl | rfl
    · exact List.mem_cons_self
    · exact List.mem_cons_of_mem _ List.mem_cons_self
  · have plain : ∀ name ∈ projectNames, isFileName name = true := by decide
    exact plain f.name (known f other)

theorem Crate.crateFiles_placeable {p : PackageSettings} {d : Document} {files : List OutputFile}
    (ended : (crateFiles p d).result = .ok files) : ArePlaceable files := by
  obtain ⟨distinct, models, modules, made⟩ := crateFiles_result ended
  obtain ⟨listing, root, manifest, introduction, listed⟩ := made.listed
  refine ⟨fun f mem => ?_, distinct⟩
  rw [listed, List.mem_append] at mem
  rcases mem with module | fixed
  · obtain ⟨m, -, text, rfl⟩ := exists_of_forall₂_right made.written module
    exact isFileName_append (Name.isNameChar_apply .snake m.name) (by decide)
  · simp only [List.mem_cons, List.not_mem_nil, or_false] at fixed
    rcases fixed with rfl | rfl | rfl | rfl <;> · dsimp only; decide

/-! ### Backends -/

namespace Backend

/-- The files for a copy of a document. A document that nests too deep has none. -/
def filesOfCopy (b : Backend) (settings : Settings) (d : Document) :
    Report Warning (List OutputFile) := do
  let copy ← Report.ofOption d.copy?
  b.filesOf settings copy

/-- **The files of both languages can be placed.** -/
theorem filesOfCopy_placeable {b : Backend} (known : b = typeScript ∨ b = rust)
    {settings : Settings} {d : Document} {files : List OutputFile}
    (ended : (b.filesOfCopy settings d).result = .ok files) : ArePlaceable files := by
  obtain ⟨copy, -, ended⟩ := bind_result_eq_ok_iff.1 ended
  obtain ⟨d', -, ended⟩ := bind_result_eq_ok_iff.1 ended
  rcases known with rfl | rfl
  · exact Package.typeScriptFiles_placeable ended
  · exact Crate.crateFiles_placeable ended

end Backend

/-! ### Keys -/

namespace Registry

variable {r : Registry} {keys known : List String} {backends : List Backend}

/-- Whether no two backends of a registry are for one language. -/
def IsUnambiguous (r : Registry) : Prop :=
  ∀ key key' b b', r.get key = .ok b → r.get key' = .ok b' → b.language = b'.language → b = b'

theorem get_standard {key : String} {b : Backend} (found : standard.get key = .ok b) :
    b = .typeScript ∨ b = .rust := by
  simp only [get, standard, register, lookup_setPair] at found
  split at found
  · next b' held =>
    obtain rfl := Except.ok.inj found
    split_ifs at held
    · exact .inr (Option.some.inj held).symm
    · exact .inl (Option.some.inj held).symm
    · exact .inl (Option.some.inj held).symm
    · cases held
  · cases found

theorem isUnambiguous_standard : standard.IsUnambiguous := by
  intro key key' b b' found found' same
  have apart : Backend.typeScript.language ≠ Backend.rust.language := by decide
  rcases get_standard found with rfl | rfl <;> rcases get_standard found' with rfl | rfl
  · rfl
  · exact absurd same apart
  · exact absurd same.symm apart
  · rfl

/-- Whether backends are those that keys ask for, one for each language. -/
structure Answers (r : Registry) (keys : List String) (backends : List Backend) : Prop where
  distinct : (backends.map (·.language)).Nodup
  mem_iff : ∀ b, b ∈ backends ↔ ∃ key ∈ keys, r.get key = .ok b

theorem exists_get_of_selectAfter (ended : r.selectAfter known keys = .ok backends) :
    ∀ key ∈ keys, ∃ b, r.get key = .ok b := by
  induction keys generalizing known backends with
  | nil => exact nofun
  | cons key rest ih =>
    obtain ⟨b, found, ended⟩ := bind_eq_ok_iff.1 ended
    refine List.forall_mem_cons.2 ⟨⟨b, found⟩, ?_⟩
    split at ended
    · exact ih ended
    · obtain ⟨others, ended, -⟩ := bind_eq_ok_iff.1 ended
      exact ih ended

theorem exists_selectAfter (all : ∀ key ∈ keys, ∃ b, r.get key = .ok b) (known : List String) :
    ∃ backends, r.selectAfter known keys = .ok backends := by
  induction keys generalizing known with
  | nil => exact ⟨[], rfl⟩
  | cons key rest ih =>
    obtain ⟨⟨b, found⟩, all⟩ := List.forall_mem_cons.1 all
    by_cases again : known.contains b.language = true
    · obtain ⟨backends, ended⟩ := ih all known
      exact ⟨backends, bind_eq_ok_iff.2 ⟨b, found, by rw [if_pos again, ended]⟩⟩
    · obtain ⟨others, ended⟩ := ih all (b.language :: known)
      refine ⟨b :: others, bind_eq_ok_iff.2 ⟨b, found, ?_⟩⟩
      rw [if_neg again]
      exact bind_eq_ok_iff.2 ⟨others, ended, rfl⟩

/-- The backends behind the known languages are those that keys ask for besides. -/
theorem selectAfter_answers (unambiguous : r.IsUnambiguous)
    (ended : r.selectAfter known keys = .ok backends) :
    (backends.map (·.language)).Nodup ∧
      ∀ b, b ∈ backends ↔ b.language ∉ known ∧ ∃ key ∈ keys, r.get key = .ok b := by
  induction keys generalizing known backends with
  | nil =>
    cases ended
    exact ⟨List.nodup_nil, by simp⟩
  | cons key rest ih =>
    obtain ⟨b, found, ended⟩ := bind_eq_ok_iff.1 ended
    split at ended
    · next again =>
      have again : b.language ∈ known := by simpa using again
      obtain ⟨distinct, mem_iff⟩ := ih ended
      refine ⟨distinct, fun c => (mem_iff c).trans (and_congr_right fun new => ?_)⟩
      rw [List.exists_mem_cons_iff, or_iff_right]
      intro same
      rw [found] at same
      exact new (Except.ok.inj same ▸ again)
    · next new =>
      have new : b.language ∉ known := by simpa using new
      obtain ⟨others, further, ended⟩ := bind_eq_ok_iff.1 ended
      obtain rfl := Except.ok.inj ended
      obtain ⟨distinct, mem_iff⟩ := ih further
      refine ⟨List.nodup_cons.2 ⟨fun mem => ?_, distinct⟩, fun c => ?_⟩
      · obtain ⟨other, listed, same⟩ := List.mem_map.1 mem
        exact ((mem_iff other).1 listed).1 (List.mem_cons.2 (.inl same))
      · rw [List.mem_cons, mem_iff, List.exists_mem_cons_iff, List.mem_cons, not_or]
        constructor
        · rintro (rfl | ⟨⟨-, apart⟩, asked⟩)
          · exact ⟨new, .inl found⟩
          · exact ⟨apart, .inr asked⟩
        · rintro ⟨apart, same | ⟨other, listed, asked⟩⟩
          · rw [found] at same
            exact .inl (Except.ok.inj same).symm
          · by_cases language : c.language = b.language
            · exact .inl (unambiguous _ _ _ _ asked found language)
            · exact .inr ⟨⟨language, apart⟩, other, listed, asked⟩

theorem exists_get_of_select (ended : r.select keys = .ok backends) :
    keys ≠ [] ∧ ∀ key ∈ keys, ∃ b, r.get key = .ok b := by
  rw [select] at ended
  split at ended
  · cases ended
  · next asked => exact ⟨by simpa using asked, exists_get_of_selectAfter ended⟩

theorem exists_select (asked : keys ≠ []) (all : ∀ key ∈ keys, ∃ b, r.get key = .ok b) :
    ∃ backends, r.select keys = .ok backends := by
  rw [select, if_neg (by simpa using asked)]
  exact exists_selectAfter all []

/-- **Keys are answered** by one backend for each language. -/
theorem answers_of_select (unambiguous : r.IsUnambiguous) (ended : r.select keys = .ok backends) :
    r.Answers keys backends := by
  rw [select] at ended
  split at ended
  · cases ended
  · obtain ⟨distinct, mem_iff⟩ := selectAfter_answers unambiguous ended
    exact ⟨distinct, fun b => (mem_iff b).trans (and_iff_right List.not_mem_nil)⟩

end Registry

end ClientGen
