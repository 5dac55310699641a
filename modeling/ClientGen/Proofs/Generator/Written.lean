import ClientGen.Proofs.Files.Written
import ClientGen.Proofs.Generator.Backends

/-!
# What runs write

The texts of several languages stand at different paths below the directory of all
(`nodup_paths_textsIn`), so that none takes the place of another, and what a run makes is what every
backend makes (`filesAfter_of_made`). **Nothing is written before everything is made**
(`runDocument_standard`): a run fails without touching the disk, or it writes the files of one backend
for each language, which do not depend on what else is asked for.
-/

namespace ClientGen.Generator

open Document (titledSchemas)
open Package (IsPlain fileOf petFiles petModels petSchemas)
open Report (bind_result_eq_ok_iff)

/-! ### Texts of several languages -/

/-- The path of a file of a backend below the directory of all. -/
def pathIn (severally : Bool) (b : Backend) (f : OutputFile) : Path :=
  if severally then (Path.ofString b.language).join f.relativePath else f.relativePath

/-- The texts that backends make, each in its directory. -/
def textsIn (directory : Path) (severally : Bool) (backends : List Backend)
    (made : Backend → List OutputFile) : PathTexts :=
  backends.flatMap fun b => placed (directoryFor directory severally b) (made b)

theorem textsIn_singleton (directory : Path) (b : Backend) (made : Backend → List OutputFile) :
    textsIn directory (1 < [b].length) [b] made = placed directory (made b) := by
  rw [textsIn, List.flatMap_singleton]
  rfl

section Texts

variable {directory : Path} {severally : Bool} {backends : List Backend}
  {made : Backend → List OutputFile}
  (spelled : ∀ b ∈ backends, Name.isFileName b.language = true)
  (placeable : ∀ b ∈ backends, ArePlaceable (made b))

include spelled placeable

theorem isPlain_pathIn {b : Backend} (mem : b ∈ backends) {f : OutputFile} (mem' : f ∈ made b) :
    (pathIn severally b f).IsPlain ∧ (pathIn severally b f).parts ≠ [] := by
  have named := (placeable b mem).named f mem'
  have plain := OutputFile.isPlain_relativePath named
  have filled : f.relativePath.parts ≠ [] := by
    rw [OutputFile.parts_relativePath named]
    exact List.append_ne_nil_of_right_ne_nil _ (List.cons_ne_nil _ _)
  rw [pathIn]
  split
  · rw [Path.join_eq plain.relative]
    exact ⟨Path.join_eq plain.relative ▸ (Path.isPlain_ofString (spelled b mem)).1.join plain,
      List.append_ne_nil_of_right_ne_nil _ filled⟩
  · exact ⟨plain, filled⟩

/-- The paths of the texts lie below the directory of all. -/
theorem paths_textsIn : (textsIn directory severally backends made).map (·.1) =
    (backends.flatMap fun b => (made b).map (pathIn severally b)).map directory.join := by
  rw [textsIn, List.map_flatMap, List.map_flatMap]
  refine List.flatMap_congr fun b mem => ?_
  simp only [placed, List.map_map, Function.comp_def]
  refine List.map_congr_left fun f mem' => ?_
  have plain := OutputFile.isPlain_relativePath ((placeable b mem).named f mem')
  rw [directoryFor, pathIn]
  split
  · exact Path.join_join (Path.isPlain_ofString (spelled b mem)).1 plain
  · rfl

theorem isPlain_of_mem_paths {p : Path}
    (mem : p ∈ backends.flatMap fun b => (made b).map (pathIn severally b)) :
    p.IsPlain ∧ p.parts ≠ [] := by
  obtain ⟨b, listed, mem⟩ := List.mem_flatMap.1 mem
  obtain ⟨f, mem', rfl⟩ := List.mem_map.1 mem
  exact isPlain_pathIn spelled placeable listed mem'

/-- Each text stands at a plain path below the directory. -/
theorem below_of_mem_textsIn : ∀ t ∈ textsIn directory severally backends made,
    ∃ p : Path, p.IsPlain ∧ p.parts ≠ [] ∧ t.1 = directory.join p := by
  intro t mem
  have path := List.mem_map_of_mem (f := (·.1)) mem
  rw [paths_textsIn spelled placeable] at path
  obtain ⟨p, listed, same⟩ := List.mem_map.1 path
  obtain ⟨plain, filled⟩ := isPlain_of_mem_paths spelled placeable listed
  exact ⟨p, plain, filled, same.symm⟩

/-- **No two texts of several languages have one path.** -/
theorem nodup_paths_textsIn (distinct : (backends.map (·.language)).Nodup)
    (single : severally = false → backends.length ≤ 1) :
    ((textsIn directory severally backends made).map (·.1)).Nodup := by
  rw [paths_textsIn spelled placeable]
  refine List.Nodup.map_on (fun p mem q mem' same => ?_) (List.nodup_flatMap.2 ⟨fun b mem => ?_, ?_⟩)
  · exact (Path.join_right_inj (isPlain_of_mem_paths spelled placeable mem).1
      (isPlain_of_mem_paths spelled placeable mem').1).1 same
  · have own := (placeable b mem).nodup_relativePaths
    rw [List.Nodup, List.pairwise_map] at own ⊢
    refine own.imp_of_mem fun {f g} mem' mem'' apart same => apart ?_
    rw [pathIn, pathIn] at same
    split at same
    · have plain := OutputFile.isPlain_relativePath ((placeable b mem).named f mem')
      have plain' := OutputFile.isPlain_relativePath ((placeable b mem).named g mem'')
      exact (Path.join_right_inj plain plain').1 same
    · exact same
  · cases severally with
    | false =>
      have few := single rfl
      match backends, few with
      | [], _ => exact .nil
      | [b], _ => exact List.pairwise_singleton _ _
    | true =>
      -- The paths of different languages begin differently.
      rw [List.Nodup, List.pairwise_map] at distinct
      refine distinct.imp_of_mem fun {b c} mem mem' apart => ?_
      refine List.disjoint_left.2 fun p here there => apart ?_
      obtain ⟨f, listed, rfl⟩ := List.mem_map.1 here
      obtain ⟨g, listed', same⟩ := List.mem_map.1 there
      have begins {b : Backend} (mem : b ∈ backends) {f : OutputFile} (mem' : f ∈ made b) :
          (pathIn true b f).parts.head? = some b.language := by
        have plain := OutputFile.isPlain_relativePath ((placeable b mem).named f mem')
        rw [pathIn, if_pos rfl, Path.join_eq plain.relative,
          (Path.isPlain_ofString (spelled b mem)).2]
        rfl
      have first := begins mem listed
      rw [← same, begins mem' listed'] at first
      exact (Option.some.inj first).symm

end Texts

/-! ### Making texts -/

section Making

variable {g : Generator} {d : Document} {directory : Path} {severally : Bool}
  {backends : List Backend} {known : PathTexts}

theorem exists_made_of_filesAfter {texts : PathTexts}
    (ended : (g.filesAfter d directory severally known backends).result = .ok texts) :
    ∀ b ∈ backends, ∃ files, (b.filesOfCopy g.settings d).result = .ok files := by
  induction backends generalizing known with
  | nil => exact nofun
  | cons b rest ih =>
    obtain ⟨copy, copied, ended⟩ := bind_result_eq_ok_iff.1 ended
    obtain ⟨files, made, ended⟩ := bind_result_eq_ok_iff.1 ended
    exact List.forall_mem_cons.2
      ⟨⟨files, bind_result_eq_ok_iff.2 ⟨copy, copied, made⟩⟩, ih ended⟩

/-- Where every backend makes its files, the texts are those of all. -/
theorem filesAfter_of_made {made : Backend → List OutputFile}
    (all : ∀ b ∈ backends, (b.filesOfCopy g.settings d).result = .ok (made b))
    (placeable : ∀ b ∈ backends, ArePlaceable (made b))
    (distinct : ((known ++ textsIn directory severally backends made).map (·.1)).Nodup) :
    (g.filesAfter d directory severally known backends).result =
      .ok (known ++ textsIn directory severally backends made) := by
  induction backends generalizing known with
  | nil => exact congrArg Except.ok (List.append_nil known).symm
  | cons b rest ih =>
    obtain ⟨own, all⟩ := List.forall_mem_cons.1 all
    obtain ⟨here, placeable⟩ := List.forall_mem_cons.1 placeable
    obtain ⟨copy, copied, own⟩ := bind_result_eq_ok_iff.1 own
    have texts : known ++ textsIn directory severally (b :: rest) made =
        (known ++ placed (directoryFor directory severally b) (made b)) ++
          textsIn directory severally rest made := by
      rw [textsIn, List.flatMap_cons, List.append_assoc]
      rfl
    rw [texts] at distinct ⊢
    have added : known.update (outputPaths (directoryFor directory severally b) (made b)) =
        known ++ placed (directoryFor directory severally b) (made b) := by
      rw [here.outputPaths_eq]
      rw [List.map_append] at distinct
      exact PathTexts.update_of_nodup distinct.of_append_left
    refine bind_result_eq_ok_iff.2 ⟨copy, copied, bind_result_eq_ok_iff.2 ⟨made b, own, ?_⟩⟩
    dsimp only
    rw [added]
    exact ih all placeable distinct

end Making

/-! ### Runs -/

section Run

variable {g : Generator} {d : Document} {directory : Path} {keys : List String} {disk : Disk}

theorem runDocument_of_error {e : Failure}
    (failed : (g.filesOf d directory keys).result = .error e) :
    (g.runDocument (pure d) directory keys disk).1 = disk ∧
      (g.runDocument (pure d) directory keys disk).2.result = .error e := by
  rw [runDocument, pure_bind, failed]
  exact ⟨rfl, failed⟩

theorem runDocument_of_ok {texts : PathTexts}
    (made : (g.filesOf d directory keys).result = .ok texts) :
    (g.runDocument (pure d) directory keys disk).1 = (writeAll texts disk).1 ∧
      (g.runDocument (pure d) directory keys disk).2.result =
        (writeAll texts disk).2.map fun _ => texts := by
  rw [runDocument, pure_bind, made]
  dsimp only
  split
  · next written => exact ⟨by rw [written], by rw [written]; exact made⟩
  · next refused => exact ⟨by rw [refused], by rw [refused]; rfl⟩

end Run

/-- Whether a run gives nothing and leaves the disk as it was. -/
structure Refuses (disk : Disk) (ended : Disk × Report Warning PathTexts) : Prop where
  disk_eq : ended.1 = disk
  failed : ∃ e, ended.2.result = .error e

/-- Whether a run writes texts one after the other, and gives them unless a write is refused. -/
structure Writes (disk : Disk) (texts : PathTexts) (ended : Disk × Report Warning PathTexts) :
    Prop where
  disk_eq : ended.1 = (writeAll texts disk).1
  result_eq : ended.2.result = (writeAll texts disk).2.map fun _ => texts
  wrote : (writeAll texts disk).2 = .ok () → disk.Wrote texts ended.1

/-- Whether a key is known, and its backend makes files of a document. -/
def IsMade (settings : Settings) (d : Document) (key : String) : Prop :=
  ∃ b files, Registry.standard.get key = .ok b ∧ (b.filesOfCopy settings d).result = .ok files

section Standard

variable {settings : Settings} {d : Document} {keys : List String}

theorem isMade_of_filesOf {directory : Path} {texts : PathTexts}
    (ended : (({ settings } : Generator).filesOf d directory keys).result = .ok texts) :
    keys ≠ [] ∧ ∀ key ∈ keys, IsMade settings d key := by
  obtain ⟨backends, selected, ended⟩ := bind_result_eq_ok_iff.1 ended
  have answers := Registry.answers_of_select Registry.isUnambiguous_standard selected
  obtain ⟨asked, found⟩ := Registry.exists_get_of_select selected
  refine ⟨asked, fun key mem => ?_⟩
  obtain ⟨b, known⟩ := found key mem
  obtain ⟨files, made⟩ := exists_made_of_filesAfter ended b ((answers.mem_iff b).2 ⟨key, mem, known⟩)
  exact ⟨b, files, known, made⟩

theorem writes_of_answers {backends : List Backend} {made : Backend → List OutputFile}
    (selected : Registry.standard.select keys = .ok backends)
    (all : ∀ b ∈ backends, (b.filesOfCopy settings d).result = .ok (made b)) (directory : Path)
    (disk : Disk) :
    ((textsIn directory (1 < backends.length) backends made).map (·.1)).Nodup ∧
      Writes disk (textsIn directory (1 < backends.length) backends made)
        (({ settings } : Generator).runDocument (pure d) directory keys disk) := by
  have answers := Registry.answers_of_select Registry.isUnambiguous_standard selected
  have known : ∀ b ∈ backends, b = .typeScript ∨ b = .rust := by
    intro b mem
    obtain ⟨key, -, found⟩ := (answers.mem_iff b).1 mem
    exact Registry.get_standard found
  have spelled : ∀ b ∈ backends, Name.isFileName b.language = true := by
    intro b mem
    rcases known b mem with rfl | rfl <;> decide
  have placeable : ∀ b ∈ backends, ArePlaceable (made b) := fun b mem =>
    Backend.filesOfCopy_placeable (known b mem) (all b mem)
  have distinct : ((textsIn directory (1 < backends.length) backends made).map (·.1)).Nodup :=
    nodup_paths_textsIn spelled placeable answers.distinct (by simp)
  refine ⟨distinct, ?_⟩
  have ended : (({ settings } : Generator).filesOf d directory keys).result =
      .ok (textsIn directory (1 < backends.length) backends made) := by
    refine bind_result_eq_ok_iff.2 ⟨backends, selected, ?_⟩
    have apart : ((([] : PathTexts) ++ textsIn directory (1 < backends.length) backends made).map
        (·.1)).Nodup := distinct
    exact filesAfter_of_made all placeable apart
  obtain ⟨disk_eq, result_eq⟩ := runDocument_of_ok ended
  refine ⟨disk_eq, result_eq, fun written => ?_⟩
  rw [disk_eq]
  exact writeAll_wrote (below_of_mem_textsIn spelled placeable) distinct written

end Standard

/-! ### The client of pets on an empty disk -/

theorem filesOfCopy_petSchemas :
    (Backend.typeScript.filesOfCopy {} (titledSchemas petSchemas)).result = .ok petFiles :=
  bind_result_eq_ok_iff.2 ⟨titledSchemas petSchemas, by with_unfolding_all rfl,
    bind_result_eq_ok_iff.2 ⟨_, Package.prepare_titledPets, Package.typeScriptFiles_titledPets⟩⟩

theorem isPlain_petFiles : ∀ f ∈ petFiles, IsPlain f.text := by
  refine List.forall_mem_append.2 ⟨List.forall_mem_map.2 Package.isPlain_petModels, ?_⟩
  simp only [List.forall_mem_cons]
  refine ⟨Package.isPlain_runtimeText Package.isPlain_titled Package.isPlain_local, ?_, nofun⟩
  refine Package.isPlain_breaks.1.intercalate fun line mem => ?_
  have fixed : ∀ line ∈ [Source.shortNotice, "", "export * from './runtime/runtime';"] ++ [""],
      IsPlain line := by
    unfold IsPlain
    decide +kernel
  simp only [List.mem_append] at mem fixed
  rcases mem with ((first | model) | api) | last
  · exact fixed line (.inl first)
  · obtain ⟨f, listed, rfl⟩ := Package.exists_of_mem_exportLines model
    clear model
    revert f
    unfold IsPlain
    decide +kernel
  · obtain ⟨f, listed, -⟩ := Package.exists_of_mem_exportLines api
    exact absurd listed List.not_mem_nil
  · exact fixed line (.inr last)

/-- A disk that holds nothing. -/
def emptyDisk : Disk := { root := .empty }

/-- Texts at the paths of `petFiles` can be written on a disk that holds nothing. -/
theorem writeAll_emptyDisk {texts : PathTexts}
    (paths : texts.map (·.1) = (placed ⟨"", ["out"]⟩ petFiles).map (·.1))
    (encoded : ∀ t ∈ texts, ∃ bytes, Utf8.encode? t.2 = some bytes) :
    (writeAll texts emptyDisk).2 = .ok () := by
  have listed : (placed ⟨"", ["out"]⟩ petFiles).map (·.1) = [
      ⟨"", ["out", "models", "litter.ts"]⟩, ⟨"", ["out", "models", "pet.ts"]⟩,
      ⟨"", ["out", "runtime", "runtime.ts"]⟩, ⟨"", ["out", "index.ts"]⟩] := by
    decide +kernel
  rw [listed] at paths
  match texts, paths with
  | [(_, t), (_, t'), (_, t''), (_, t₃)], rfl =>
    simp only [List.forall_mem_cons] at encoded
    obtain ⟨⟨_, h⟩, ⟨_, h'⟩, ⟨_, h''⟩, ⟨_, h₃⟩, -⟩ := encoded
    simp only [writeAll, Disk.writeText, h, h', h'', h₃]
    with_unfolding_all rfl

theorem writeAll_petFiles : (writeAll (placed ⟨"", ["out"]⟩ petFiles) emptyDisk).2 = .ok () := by
  refine writeAll_emptyDisk rfl (List.forall_mem_map.2 fun f mem => ⟨f.text.toUTF8.toList, ?_⟩)
  rw [Utf8.encode?, isPlain_petFiles f mem]
  rfl

/-! ### All runs -/

/-- **Nothing is written before everything is made.** If there is no key, or one is unknown or its
backend makes no files, a run fails and leaves the disk as it was. Otherwise the files of one backend
for each language are written, each at a path of its own, and those of a backend are the same as where
it is the only one. -/
theorem runDocument_standard (settings : Settings) (d : Document) (directory : Path)
    (keys : List String) (disk : Disk) :
    ((keys = [] ∨ ∃ key ∈ keys, ¬ IsMade settings d key) →
      Refuses disk (({ settings } : Generator).runDocument (pure d) directory keys disk)) ∧
    (keys ≠ [] → (∀ key ∈ keys, IsMade settings d key) →
      ∃ (backends : List Backend) (made : Backend → List OutputFile),
        Registry.standard.Answers keys backends ∧
        (∀ b ∈ backends, (b.filesOfCopy settings d).result = .ok (made b)) ∧
        ((textsIn directory (1 < backends.length) backends made).map (·.1)).Nodup ∧
        Writes disk (textsIn directory (1 < backends.length) backends made)
          (({ settings } : Generator).runDocument (pure d) directory keys disk) ∧
        ∀ b ∈ backends, ∀ key, Registry.standard.get key = .ok b → ∀ directory' disk',
          Writes disk' (placed directory' (made b))
            (({ settings } : Generator).runDocument (pure d) directory' [key] disk')) := by
  constructor
  · intro missing
    cases ended : (({ settings } : Generator).filesOf d directory keys).result with
    | ok texts =>
      obtain ⟨asked, all⟩ := isMade_of_filesOf ended
      rcases missing with none | ⟨key, mem, unmade⟩
      · exact absurd none asked
      · exact absurd (all key mem) unmade
    | error e =>
      obtain ⟨disk_eq, failed⟩ := runDocument_of_error ended
      exact ⟨disk_eq, e, failed⟩
  · intro asked all
    have found : ∀ key ∈ keys, ∃ b, Registry.standard.get key = .ok b := fun key mem => by
      obtain ⟨b, -, known, -⟩ := all key mem
      exact ⟨b, known⟩
    obtain ⟨backends, selected⟩ := Registry.exists_select asked found
    have answers := Registry.answers_of_select Registry.isUnambiguous_standard selected
    have makes : ∀ b ∈ backends, ∃ files, (b.filesOfCopy settings d).result = .ok files := by
      intro b mem
      obtain ⟨key, listed, known⟩ := (answers.mem_iff b).1 mem
      obtain ⟨b', files, known', made⟩ := all key listed
      rw [known] at known'
      obtain rfl := Except.ok.inj known'
      exact ⟨files, made⟩
    choose! made made_eq using makes
    obtain ⟨distinct, writes⟩ := writes_of_answers selected made_eq directory disk
    refine ⟨backends, made, answers, made_eq, distinct, writes, fun b mem key known directory' disk' => ?_⟩
    have alone : Registry.standard.select [key] = .ok [b] :=
      bind_eq_ok_iff.2 ⟨b, known, rfl⟩
    have one : ∀ b' ∈ [b], (b'.filesOfCopy settings d).result = .ok (made b') := by
      intro b' mem'
      obtain rfl := List.mem_singleton.1 mem'
      exact made_eq b' mem
    obtain ⟨-, writes⟩ := writes_of_answers alone one directory' disk'
    rwa [textsIn_singleton] at writes

theorem runDocument_standard_of_pets :
    let d := titledSchemas petSchemas
    let run := ({} : Generator).runDocument (pure d) ⟨"", ["out"]⟩
    Refuses emptyDisk (run ["ts", "java"] emptyDisk) ∧
    (run ["ts", " TypeScript "] emptyDisk).2.result = .ok (placed ⟨"", ["out"]⟩ petFiles) ∧
    emptyDisk.Wrote (placed ⟨"", ["out"]⟩ petFiles) (run ["ts", " TypeScript "] emptyDisk).1 := by
  intro d run
  have known : Registry.standard.get "ts" = .ok .typeScript ∧
      Registry.standard.get " TypeScript " = .ok .typeScript := by
    constructor <;> with_unfolding_all rfl
  have unknown : Registry.standard.get "java" =
      .error (.unknownLanguage "java" Registry.standard.available) := by
    with_unfolding_all rfl
  have runs := runDocument_standard {} d ⟨"", ["out"]⟩
  refine ⟨(runs ["ts", "java"] emptyDisk).1 (.inr ⟨"java", by simp, ?_⟩), ?_⟩
  · rintro ⟨b, files, found, -⟩
    rw [unknown] at found
    cases found
  · have made : ∀ key ∈ ["ts", " TypeScript "], IsMade {} d key := by
      simp only [List.forall_mem_cons]
      exact ⟨⟨_, _, known.1, filesOfCopy_petSchemas⟩, ⟨_, _, known.2, filesOfCopy_petSchemas⟩, nofun⟩
    obtain ⟨backends, made, answers, made_eq, -, writes, -⟩ :=
      (runs ["ts", " TypeScript "] emptyDisk).2 (by simp) made
    have mem_iff (b : Backend) : b ∈ backends ↔ b ∈ [Backend.typeScript] := by
      simp [answers.mem_iff, known.1, known.2, eq_comm]
    obtain rfl : backends = [.typeScript] := List.perm_singleton.1
      ((List.perm_ext_iff_of_nodup (answers.distinct.of_map _) (List.nodup_singleton _)).2 mem_iff)
    have files : made .typeScript = petFiles := Except.ok.inj
      ((made_eq _ List.mem_cons_self).symm.trans filesOfCopy_petSchemas)
    rw [textsIn_singleton, files] at writes
    refine ⟨?_, writes.wrote writeAll_petFiles⟩
    rw [writes.result_eq, writeAll_petFiles]
    rfl

end ClientGen.Generator
