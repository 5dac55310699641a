import ClientGen.Files.Disk
import ClientGen.Files.Output
import ClientGen.Proofs.Name.Spelling
import ClientGen.Proofs.Text.Length

/-!
# Names of files

A plain file name (`isFileName`) holds no slash and does not end in a dot, so that it is one part of
a path (`ofString_of_isFileName`), leads down, and is spelled on a disk as it is written. Paths of
such names (`Path.IsPlain`) can be put one below the other (`join_join`), where different ones stay
different (`join_right_inj`).
-/

namespace ClientGen

/-! ### Plain names -/

theorem Text.splitAt_of_not_mem {c : Char} {s : String} (plain : c ∉ s.toList) :
    Text.splitAt c s = [s] := by
  rw [Text.splitAt, Text.splitWhere_of_not_mem plain, List.map_singleton, String.ofList_toList]

namespace Name

/-- Whether a text is a plain name of a file: characters of names with dots between them. -/
def isFileName (s : String) : Bool :=
  s.toList.all (fun c => isNameChar c || c == '.') && s.toList.getLast?.any isNameChar

section IsFileName

variable {s : String} (plain : isFileName s = true)

include plain

theorem ne_slash_of_isFileName : '/' ∉ s.toList := by
  intro mem
  have here := List.all_eq_true.1 (Bool.and_eq_true_iff.1 plain).1 _ mem
  exact absurd here (by decide)

/-- A plain name does not consist of dots. -/
theorem ne_dots_of_isFileName : s ≠ "" ∧ s ≠ "." ∧ s ≠ ".." := by
  refine ⟨?_, ?_, ?_⟩ <;> · rintro rfl; exact absurd plain (by decide)

/-- A plain name is one part of a path. -/
theorem ofString_of_isFileName : Path.ofString s = ⟨"", [s]⟩ := by
  have noSlash := ne_slash_of_isFileName plain
  obtain ⟨filled, dot, -⟩ := ne_dots_of_isFileName plain
  have relative : s.toList.takeWhile (· == '/') = [] := by
    cases chars : s.toList with
    | nil => rfl
    | cons c rest =>
      have first : c ≠ '/' := fun same => noSlash (chars ▸ same ▸ List.mem_cons_self)
      simp [first]
  rw [Path.ofString, Path.rootOf, relative, Text.splitAt_of_not_mem noSlash]
  simp [filled, dot]

/-- A plain name is written on a disk as it is. -/
theorem fileName_of_isFileName : Utf8.fileName s = s := by
  have whole : s.toList.any Text.keepsHalf = false := by
    rw [List.any_eq_false]
    intro c mem
    have here := List.all_eq_true.1 (Bool.and_eq_true_iff.1 plain).1 c mem
    simp only [isNameChar, Bool.or_eq_true, decide_eq_true_eq, beq_iff_eq] at here
    rcases here with ((letter | rfl) | rfl) | rfl
    · have small := toNat_lt_of_isAlphanum letter
      rw [Text.keepsHalf, Nat.sub_eq_zero_of_le (by rw [Text.halfOffset]; omega)]
      decide
    all_goals decide
  rw [Utf8.fileName, whole]
  rfl

end IsFileName

/-- Characters of names before a plain name make a plain name. -/
theorem isFileName_append {base ending : String} (chars : ∀ c ∈ base.toList, isNameChar c = true)
    (plain : isFileName ending = true) : isFileName (base ++ ending) = true := by
  obtain ⟨all, last⟩ := Bool.and_eq_true_iff.1 plain
  obtain ⟨c, ends, kept⟩ := (Option.any_eq_true _ _).1 last
  refine Bool.and_eq_true_iff.2 ⟨?_, ?_⟩
  · rw [String.toList_append, List.all_append, all, Bool.and_true]
    exact List.all_eq_true.2 fun c mem => by rw [chars c mem, Bool.true_or]
  · rw [String.toList_append, List.getLast?_append, ends]
    exact kept

end Name

/-! ### Plain paths -/

namespace Path

/-- Whether a path is relative, and made of plain names. -/
structure IsPlain (p : Path) : Prop where
  relative : p.root = ""
  names : ∀ name ∈ p.parts, Name.isFileName name = true

theorem isPlain_ofString {s : String} (plain : Name.isFileName s = true) :
    (ofString s).IsPlain ∧ (ofString s).parts = [s] := by
  rw [Name.ofString_of_isFileName plain]
  exact ⟨⟨rfl, by simpa using plain⟩, rfl⟩

theorem join_eq {p q : Path} (relative : q.root = "") :
    p.join q = { p with parts := p.parts ++ q.parts } := by
  rw [join, relative]
  rfl

theorem IsPlain.join {p q : Path} (h : p.IsPlain) (h' : q.IsPlain) : (p.join q).IsPlain := by
  rw [join_eq h'.relative]
  exact ⟨h.relative, List.forall_mem_append.2 ⟨h.names, h'.names⟩⟩

theorem join_join {p q r : Path} (h : q.IsPlain) (h' : r.IsPlain) :
    (p.join q).join r = p.join (q.join r) := by
  rw [join_eq h'.relative, join_eq h.relative, join_eq (h.join h').relative,
    join_eq h'.relative, List.append_assoc]

theorem join_right_inj {p q r : Path} (h : q.IsPlain) (h' : r.IsPlain) :
    p.join q = p.join r ↔ q = r := by
  rw [join_eq h.relative, join_eq h'.relative]
  obtain ⟨root, parts⟩ := q
  obtain ⟨root', parts'⟩ := r
  obtain rfl : root = "" := h.relative
  obtain rfl : root' = "" := h'.relative
  simp

section IsPlain

variable {p : Path} (h : p.IsPlain)

include h

theorem IsPlain.noDots : ".." ∉ p.parts := fun mem =>
  (Name.ne_dots_of_isFileName (h.names _ mem)).2.2 rfl

/-- The names that a plain path has on a disk are its parts. -/
theorem IsPlain.namesOf_eq : Disk.namesOf p = p.parts := by
  rw [Disk.namesOf]
  exact (List.map_congr_left fun name mem => Name.fileName_of_isFileName (h.names name mem)).trans
    (List.map_id _)

end IsPlain

end Path

/-! ### Places of files -/

theorem Category.isPlain_directory (c : Category) : c.directory.IsPlain := by
  cases c <;> exact ⟨rfl, by decide⟩

namespace OutputFile

variable {f g : OutputFile} (plain : Name.isFileName f.name = true)

include plain

theorem parts_relativePath : f.relativePath.parts = f.category.directory.parts ++ [f.name] := by
  rw [relativePath, Name.ofString_of_isFileName plain]
  rfl

theorem isPlain_relativePath : f.relativePath.IsPlain :=
  f.category.isPlain_directory.join (Path.isPlain_ofString plain).1

/-- Files of different categories, or with different names, are put at different paths. -/
theorem eq_of_relativePath_eq (plain' : Name.isFileName g.name = true)
    (same : f.relativePath = g.relativePath) : f.category = g.category ∧ f.name = g.name := by
  have parts := congrArg Path.parts same
  rw [parts_relativePath plain, parts_relativePath plain'] at parts
  have places := List.append_inj' parts rfl
  refine ⟨?_, (List.cons.inj places.2).1⟩
  have directories := places.1
  revert directories
  cases f.category <;> cases g.category <;> decide

end OutputFile

end ClientGen
