import ClientGen.Cli.Run
import ClientGen.Proofs.Files.Restored
import ClientGen.Proofs.Files.Written
import ClientGen.Proofs.Lists.Pointwise

/-!
# The output directory after a failure

A run that fails has at most added to the disk (`Generator.extends_run`), so the output path still
leads to the directory that it led to, and what was kept of it is put back there. **A run that
fails leaves the output directory as it was** (`run_restores`) if the directory can be replaced by
its path: if the path ends in a name, and does not lead through the directory. Otherwise the
directory is emptied, and what it held is lost: so it is for the directory that paths begin at
(`run_empties_home`).
-/

namespace ClientGen

/-- A run holds on to all that was on the disk, whether it fails or not. -/
theorem Generator.extends_run (g : Generator) (input directory : Path) (keys : List String)
    (disk : Disk) : disk.Extends (g.run input directory keys disk).1 := by
  rw [run, runDocument]
  split
  · exact .refl disk
  · next texts made =>
    have written := extends_writeAll texts disk
    split
    · next ended =>
      rw [ended] at written
      exact written
    · next ended =>
      rw [ended] at written
      exact written

namespace Cli

/-- Options that were accepted make settings. -/
theorem exists_settingsOf {args : List String} {o : Options} (accepted : optionsOf args = .ok o) :
    ∃ settings, settingsOf o = .ok settings := by
  have wide : 0 < o.maxLineWidth := by
    obtain ⟨words, -, accepted⟩ := bind_eq_ok_iff.1 accepted
    obtain ⟨⟨options, others⟩, -, accepted⟩ := bind_eq_ok_iff.1 accepted
    dsimp only at accepted
    split at accepted
    · cases accepted
    · split at accepted
      · cases accepted
      · next wide =>
        obtain rfl := Except.ok.inj accepted
        omega
  refine ⟨_, bind_eq_ok_iff.2 ⟨⟨o.naming, o.maxLineWidth, wide⟩, ?_, rfl⟩⟩
  rw [FileSettings.make, dif_pos wide]

/-- A run that fails has put back what was kept. -/
theorem disk_of_generateWith {o : Options} {settings : Settings} {kept : Tree} {disk : Disk}
    (failed : (generateWith o settings (some kept) disk).exitCode ≠ 0) :
    ∃ written, disk.Extends written ∧
      (generateWith o settings (some kept) disk).disk = (written.restore o.output kept).1 := by
  have more := Generator.extends_run { settings } o.input o.output o.languages disk
  refine ⟨_, more, ?_⟩
  revert failed
  unfold generateWith
  dsimp only
  split
  · exact fun failed => absurd rfl failed
  · intro _
    unfold recover
    dsimp only
    split <;> next ended => simp only [ended]

section

variable {args : List String} {o : Options} {disk : Disk} {place : List String}
  {held : TreeEntries}

/-- **A run that fails** leaves an output directory that held something as it was if it can be
replaced by its path, and empties it otherwise. -/
theorem run_restores (accepted : optionsOf args = .ok o) (found : disk.locate o.output = .ok place)
    (here : disk.root.at? place = some (.directory held)) (filled : held ≠ [])
    (failed : (run args disk).exitCode ≠ 0) :
    (disk.IsReplaceable o.output place →
      (run args disk).disk.find? o.output = some (.directory held)) ∧
    (¬ disk.IsReplaceable o.output place →
      (run args disk).disk.root.at? place = some .empty) := by
  obtain ⟨settings, made⟩ := exists_settingsOf accepted
  have kept : disk.filled? o.output = .ok (some (.directory held)) := by
    rw [Disk.filled?, found, Disk.find?_eq found, here]
    simp [Option.filter, Tree.isFilledDirectory, filled]
  have ran : run args disk = generateWith o settings (some (.directory held)) disk := by
    rw [run, accepted]
    change generate o disk = _
    rw [generate, made, kept]
  rw [ran] at failed ⊢
  obtain ⟨written, more, after⟩ := disk_of_generateWith failed
  rw [after]
  exact ⟨fun replaceable => (Disk.find?_restore found here more replaceable held).1,
    fun stuck => (Disk.at?_restore found here more stuck (.directory held)).1⟩

end

/-- A home with a note and, below it, a directory with another one. -/
def noteHome : Disk :=
  ⟨.directory [("note", .file [104, 105]), ("out", .directory [("note", .file [104, 111])])], []⟩

/-- Options of a run without an input. -/
def missingInput (output : String) : Options where
  input := ⟨"", ["missing"]⟩
  output := .ofString output
  languages := ["typescript"]
  package := false
  packageName := none
  scope := none
  esm := false
  naming := .kebab
  maxLineWidth := 80
  verbose := false

/-- A directory below the home is put back. -/
theorem run_restores_out :
    (run ["generate", "-i", "missing", "-o", "out"] noteHome).disk.find? ⟨"", ["out"]⟩ =
      some (.directory [("note", .file [104, 111])]) := by
  have accepted :
      optionsOf ["generate", "-i", "missing", "-o", "out"] = .ok (missingInput "out") := by
    decide +kernel
  have output : (missingInput "out").output = ⟨"", ["out"]⟩ := by decide +kernel
  have found : noteHome.locate (missingInput "out").output = .ok ["out"] := by decide +kernel
  have replaceable : noteHome.IsReplaceable (missingInput "out").output ["out"] :=
    Disk.isReplaceable_of_noDots found (by decide +kernel) (by decide +kernel)
  exact output ▸ (run_restores accepted found rfl (by simp) (by decide +kernel)).1 replaceable

/-- **The directory that paths begin at is not put back**: it is emptied, and then it cannot be
deleted by that name. -/
theorem run_empties_home :
    ¬ ∀ (args : List String) (o : Options) (disk : Disk) (tree : Tree), optionsOf args = .ok o →
      disk.find? o.output = some tree → tree.isFilledDirectory = true →
      (run args disk).exitCode ≠ 0 → (run args disk).disk.find? o.output = some tree := by
  intro restores
  have accepted : optionsOf ["generate", "-i", "missing", "-o", "."] = .ok (missingInput ".") := by
    decide +kernel
  have here : noteHome.find? (missingInput ".").output = some noteHome.root := by
    have found : noteHome.locate (missingInput ".").output = .ok [] := by decide +kernel
    rw [Disk.find?_eq found]
    rfl
  have kept := restores _ _ noteHome _ accepted here rfl (by decide +kernel)
  have files := congrArg (Option.map Tree.files) kept
  revert files
  decide +kernel

end Cli

end ClientGen
