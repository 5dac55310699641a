import ClientGen.Generator.Run
import ClientGen.Proofs.Files.Names
import ClientGen.Proofs.Files.Places
import ClientGen.Proofs.Lists.Pointwise

/-!
# What writing leaves on a disk

Writing a file makes the directories that are missing around it and changes no other file
(`writeText_writes`). So when files are written one after the other, each at a place of its own, a
disk holds them and otherwise the files that it held before (`writeAll_writes`); wherever writing
stops, nothing that was there is gone (`extends_writeAll`).

Texts at different paths are kept in the order in which they come (`update_of_nodup`). Different
plain paths lead to different places below a directory, so that **every text can be read where it was
written, and the files at all other places are those that were there before** (`writeAll_wrote`).
-/

namespace ClientGen.Disk

/-! ## Making directories -/

/-- What is known of a place for something: either something is there, or it is a name in a
directory that is there. -/
inductive IsPlaceFor (d : Disk) (p : Path) (place : List String) : Prop
  | there (found : d.locate p = .ok place) (present : (d.root.at? place).isSome)
  | inside {parent : List String} {name : String} {es : TreeEntries}
    (possible : pathFault? p = none) (leads : Leads d.root (d.start p) (namesOf p.parent) parent)
    (directory : d.root.at? parent = some (.directory es))
    (last : namesOf p = namesOf p.parent ++ [name]) (noDots : name ≠ "..")
    (short : isTooLong name = false) (place_eq : place = parent ++ [name])

theorem isPlaceFor_of_placeFor {d : Disk} {p : Path} (filled : p.parts ≠ []) {place : List String}
    (found : d.placeFor p = .ok place) : IsPlaceFor d p place := by
  have names : namesOf p ≠ [] := fun none => filled (List.map_eq_nil_iff.1 none)
  have last : namesOf p = namesOf p.parent ++ [(namesOf p).getLast names] := by
    have before : namesOf p.parent = (namesOf p).dropLast := List.map_dropLast
    rw [before, List.dropLast_append_getLast]
  have located (found : d.locate p = .ok place) : IsPlaceFor d p place :=
    .there found ((locate_eq_ok_iff.1 found).2.isSome_of_ne_nil names)
  rw [placeFor, List.getLast?_eq_some_getLast names] at found
  cases possible : pathFault? p with
  | some fault =>
    rw [possible] at found
    cases found
  | none =>
    rw [possible] at found
    dsimp only at found
    split at found
    · exact located found
    · next noDots =>
      split at found
      · cases found
      · next parent leads =>
        split at found
        · next es directory =>
          split at found
          · cases found
          · next short =>
            cases found
            exact .inside possible (locate_eq_ok_iff.1 leads).2 directory last noDots
              (by simpa using short) rfl
        · cases found
        · cases found

/-- What was made or written at the place for a path is found by the path. -/
theorem IsPlaceFor.locate {d d' : Disk} {p : Path} {place : List String} (h : IsPlaceFor d p place)
    (more : Extends d d') (made : (d'.root.at? place).isSome) : d'.locate p = .ok place := by
  cases h with
  | there found _ => exact locate_of_extends more found
  | @inside parent name es possible leads directory last noDots short place_eq =>
    subst place_eq
    refine locate_eq_ok_iff.2 ⟨possible, ?_⟩
    obtain ⟨es', directory'⟩ := more.root.directory directory
    rw [last, more.start]
    refine (leads.mono more.root).append (.down directory' noDots short ?_ (.here _))
    rwa [← Tree.at?_append_singleton directory']

/-- The way to the place for a path is open. -/
theorem IsPlaceFor.isOpen {d : Disk} {p : Path} {place : List String} (h : IsPlaceFor d p place) :
    d.root.IsOpen place := by
  cases h with
  | there _ present =>
    obtain ⟨u, here⟩ := Option.isSome_iff_exists.1 present
    exact Tree.isOpen_of_at? here
  | inside _ _ directory _ _ _ place_eq =>
    subst place_eq
    exact Tree.isOpen_append_singleton directory _

/-- Whether a disk holds the files that another one holds, and at least its directories. -/
structure Grown (d d' : Disk) : Prop where
  more : Extends d d'
  files : ∀ place, d'.root.bytesAt? place = d.root.bytesAt? place

theorem Grown.refl (d : Disk) : Grown d d := ⟨.refl d, fun _ => rfl⟩

theorem Grown.trans {d d' d'' : Disk} (h : Grown d d') (h' : Grown d' d'') : Grown d d'' :=
  ⟨h.more.trans h'.more, fun place => (h'.files place).trans (h.files place)⟩

/-- Where nothing is, nothing is below. -/
theorem bytesAt?_append_of_free {t : Tree} {place : List String} (free : t.at? place = none)
    (rest : List String) : t.bytesAt? (place ++ rest) = none := by
  rw [Tree.bytesAt?, Tree.at?_append, free]
  rfl

theorem grown_makeDirectory {d d' : Disk} {p : Path} (filled : p.parts ≠ [])
    (made : d.makeDirectory p = .ok d') : Grown d d' := by
  rw [makeDirectory] at made
  split at made
  · cases made
  · next place found =>
    split at made
    · cases made
    · next free =>
      obtain rfl := Except.ok.inj made
      have nothing : d.root.at? place = none := by simpa using free
      have isOpen := (isPlaceFor_of_placeFor filled found).isOpen
      refine ⟨.put fun u here => ?_, fun other => ?_⟩
      · rw [nothing] at here
        cases here
      · by_cases below : place <+: other
        · obtain ⟨rest, rfl⟩ := below
          rw [bytesAt?_append_of_free nothing, Tree.bytesAt?, Disk.put, Tree.at?_put_append isOpen]
          exact Tree.bytesAt?_empty rest
        · exact Tree.bytesAt?_put_of_not_prefix below _ _

theorem grown_ensureParts (pathRoot : String) (reversed : List String) (d : Disk) :
    Grown d (ensureParts pathRoot reversed d).1 := by
  induction reversed generalizing d with
  | nil => exact .refl d
  | cons name before ih =>
    have filled : (⟨pathRoot, (name :: before).reverse⟩ : Path).parts ≠ [] := by simp
    rw [ensureParts]
    split
    · next d' made => exact grown_makeDirectory filled made
    · -- The directories before it are made first.
      have before := ih d
      split
      · next d' refusal ended =>
        rw [ended] at before
        exact before
      · next d' ended =>
        rw [ended] at before
        split
        · next d'' made => exact before.trans (grown_makeDirectory filled made)
        · exact before
    · exact .refl d

theorem grown_ensureDirectory (p : Path) (d : Disk) : Grown d (d.ensureDirectory p).1 :=
  grown_ensureParts p.root p.parts.reverse d

/-! ## Writing a file -/

/-- What is at a place that a file is written to: a file or nothing. -/
theorem writeBytes_eq_ok {d d' : Disk} {p : Path} {bytes : List UInt8}
    (written : d.writeBytes p bytes = .ok d') :
    ∃ place, d.placeFor p = .ok place ∧ (∀ es, d.root.at? place ≠ some (.directory es)) ∧
      d' = d.put place (.file bytes) := by
  rw [writeBytes] at written
  split at written
  · cases written
  · next place found =>
    split at written
    · cases written
    · next noDirectory => exact ⟨place, found, noDirectory, (Except.ok.inj written).symm⟩

theorem extends_writeBytes {d d' : Disk} {p : Path} {bytes : List UInt8}
    (written : d.writeBytes p bytes = .ok d') : Extends d d' := by
  obtain ⟨place, -, noDirectory, rfl⟩ := writeBytes_eq_ok written
  refine .put fun u here => ?_
  cases u with
  | directory es => exact absurd here (noDirectory es)
  | file old => exact Tree.extends_of_plain (.inr ⟨old, rfl⟩) rfl

/-- Whether a disk has a file at the place that a path leads to, and otherwise the files of another
disk. -/
structure WritesAt (d : Disk) (p : Path) (bytes : List UInt8) (place : List String)
    (d' : Disk) : Prop where
  more : Extends d d'
  found : d'.locate p = .ok place
  files : ∀ other, d'.root.bytesAt? other =
    if other = place then some bytes else d.root.bytesAt? other

theorem writeBytes_writes {d d' : Disk} {p : Path} (filled : p.parts ≠ []) {bytes : List UInt8}
    (written : d.writeBytes p bytes = .ok d') : ∃ place, WritesAt d p bytes place d' := by
  have more := extends_writeBytes written
  obtain ⟨place, found, noDirectory, rfl⟩ := writeBytes_eq_ok written
  have isPlace := isPlaceFor_of_placeFor filled found
  have here : (d.put place (.file bytes)).root.at? place = some (.file bytes) :=
    Tree.at?_put_self isPlace.isOpen _
  refine ⟨place, more, isPlace.locate more (by rw [here]; rfl), fun other => ?_⟩
  split
  · next same =>
    rw [same, Tree.bytesAt?, here]
    rfl
  · next other_ne =>
    by_cases below : place <+: other
    · -- Below a file there is nothing, and there was nothing before.
      obtain ⟨rest, rfl⟩ := below
      cases rest with
      | nil => exact absurd (List.append_nil place) other_ne
      | cons name rest =>
        have nothing : d.root.at? (place ++ name :: rest) = none := by
          rw [Tree.at?_append]
          cases known : d.root.at? place with
          | none => rfl
          | some u =>
            cases u with
            | file old => rfl
            | directory es => exact absurd known (noDirectory es)
        rw [Tree.bytesAt?, Tree.bytesAt?, nothing, Disk.put, Tree.at?_put_append isPlace.isOpen]
        rfl
    · exact Tree.bytesAt?_put_of_not_prefix below _ _

theorem extends_writeText (p : Path) (text : String) (d : Disk) :
    Extends d (d.writeText p text).1 := by
  have before := (grown_ensureDirectory p.parent d).more
  rw [writeText]
  split
  · next d' refusal ended =>
    rw [ended] at before
    exact before
  · next d' ended =>
    rw [ended] at before
    dsimp only
    split
    · next d'' written =>
      split at written
      · exact before.trans (extends_writeBytes written)
      · cases written
    · exact before

/-- A text that was written is at its path, and no other file was changed. -/
theorem writeText_writes {p : Path} (filled : p.parts ≠ []) {text : String} {d : Disk}
    (ended : (d.writeText p text).2 = .ok ()) :
    ∃ bytes place, Utf8.encode? text = some bytes ∧
      WritesAt d p bytes place (d.writeText p text).1 := by
  have before := grown_ensureDirectory p.parent d
  revert ended
  rw [writeText]
  split
  · exact nofun
  · next d' made =>
    rw [made] at before
    dsimp only
    split
    · next d'' written =>
      intro _
      split at written
      · next bytes encoded =>
        obtain ⟨place, more, found, files⟩ := writeBytes_writes filled written
        refine ⟨bytes, place, encoded, before.more.trans more, found, fun other => ?_⟩
        rw [files, before.files]
      · cases written
    · exact nofun

end ClientGen.Disk

namespace ClientGen.Generator

open Disk (Extends WritesAt)

/-! ## Writing files one after the other -/

theorem writeAll_cons (f : Path × String) (rest : PathTexts) (d : Disk) :
    writeAll (f :: rest) d =
      match (d.writeText f.1 f.2).2 with
      | .ok _ => writeAll rest (d.writeText f.1 f.2).1
      | .error refusal => ((d.writeText f.1 f.2).1, .error (refused f.1 refusal)) := by
  obtain ⟨p, text⟩ := f
  rw [writeAll]
  rcases d.writeText p text with ⟨d', refusal | done⟩ <;> rfl

/-- Wherever writing stops, the disk holds at least what it held. -/
theorem extends_writeAll (texts : PathTexts) (d : Disk) : Extends d (writeAll texts d).1 := by
  induction texts generalizing d with
  | nil => exact .refl d
  | cons f rest ih =>
    have first := d.extends_writeText f.1 f.2
    rw [writeAll_cons]
    split
    · exact first.trans (ih _)
    · exact first

/-- Whether a disk has texts at places, and otherwise the files of another disk. -/
structure WritesAll (d : Disk) (texts : PathTexts) (places : List (List String))
    (d' : Disk) : Prop where
  more : Extends d d'
  found : List.Forall₂ (fun f place => d'.locate f.1 = .ok place) texts places
  written : places.Nodup →
    List.Forall₂ (fun f place => ∃ bytes, Utf8.encode? f.2 = some bytes ∧
      d'.root.bytesAt? place = some bytes) texts places
  others : ∀ place, place ∉ places → d'.root.bytesAt? place = d.root.bytesAt? place

/-- **What writing leaves.** When all files were written, each is found by its path, and no file was
changed at any other place. -/
theorem writeAll_writes {texts : PathTexts} (filled : ∀ f ∈ texts, f.1.parts ≠ []) {d : Disk}
    (ended : (writeAll texts d).2 = .ok ()) :
    ∃ places, WritesAll d texts places (writeAll texts d).1 := by
  induction texts generalizing d with
  | nil => exact ⟨[], .refl d, .nil, fun _ => .nil, fun _ _ => rfl⟩
  | cons f rest ih =>
    obtain ⟨here, filled⟩ := List.forall_mem_cons.1 filled
    rw [writeAll_cons] at ended ⊢
    split at ended
    · next first =>
      obtain ⟨bytes, place, encoded, more, found, files⟩ := Disk.writeText_writes here first
      obtain ⟨places, further, foundRest, written, others⟩ := ih filled ended
      refine ⟨place :: places, more.trans further,
        .cons (Disk.locate_of_extends further found) foundRest, fun distinct => ?_,
        fun other apart => ?_⟩
      · obtain ⟨new, distinct⟩ := List.nodup_cons.1 distinct
        refine .cons ⟨bytes, encoded, ?_⟩ (written distinct)
        rw [others place new, files, if_pos rfl]
      · rw [List.mem_cons, not_or] at apart
        obtain ⟨ne, apart⟩ := apart
        rw [others other apart, files, if_neg ne]
    · cases ended

end ClientGen.Generator

namespace ClientGen

/-! ## Texts by path -/

namespace PathTexts

theorem set_of_not_mem {p : Path} {texts : PathTexts} (new : p ∉ texts.map (·.1)) (text : String) :
    PathTexts.set p text texts = texts ++ [(p, text)] := by
  induction texts with
  | nil => rfl
  | cons f rest ih =>
    rw [List.map_cons, List.mem_cons, not_or] at new
    rw [set, if_neg (Ne.symm new.1), ih new.2]
    rfl

/-- Texts at new paths are added behind those that are known. -/
theorem update_of_nodup {known new : PathTexts} (distinct : ((known ++ new).map (·.1)).Nodup) :
    known.update new = known ++ new := by
  induction new generalizing known with
  | nil => exact (List.append_nil known).symm
  | cons f rest ih =>
    have apart : f.1 ∉ known.map (·.1) := by
      rw [List.map_append, List.map_cons, List.nodup_middle, List.nodup_cons] at distinct
      exact fun mem => distinct.1 (List.mem_append_left _ mem)
    have moved : known ++ f :: rest = (known ++ [f]) ++ rest := by
      rw [List.append_assoc, List.singleton_append]
    rw [moved] at distinct ⊢
    rw [← ih distinct, ← set_of_not_mem apart f.2]
    rfl

end PathTexts

/-- The texts of files below a directory. -/
def placed (directory : Path) (files : List OutputFile) : PathTexts :=
  files.map fun f => (directory.join f.relativePath, f.text)

/-! ## Places of plain paths -/

namespace Disk

/-- Different plain paths lead to different places below a directory. -/
theorem eq_of_locate_join {d : Disk} {directory p q : Path} (plain : p.IsPlain) (plain' : q.IsPlain)
    {place : List String} (found : d.locate (directory.join p) = .ok place)
    (found' : d.locate (directory.join q) = .ok place) : p = q := by
  have below {r : Path} (h : r.IsPlain) (found : d.locate (directory.join r) = .ok place) :
      ∃ base, Leads d.root (d.start directory) (namesOf directory) base ∧ place = base ++ r.parts := by
    have noDots : ".." ∉ namesOf r := h.namesOf_eq ▸ h.noDots
    obtain ⟨base, leads, split⟩ := exists_of_locate_join h.relative noDots found
    exact ⟨base, leads, h.namesOf_eq ▸ split⟩
  obtain ⟨base, leads, split⟩ := below plain found
  obtain ⟨base', leads', split'⟩ := below plain' found'
  obtain rfl := leads.unique leads'
  have parts := List.append_cancel_left (split.symm.trans split')
  obtain ⟨root, _⟩ := p
  obtain ⟨root', _⟩ := q
  obtain rfl : root = "" := plain.relative
  obtain rfl : root' = "" := plain'.relative
  exact congrArg _ parts

theorem readBytes_of_bytesAt? {d : Disk} {p : Path} {place : List String} {bytes : List UInt8}
    (found : d.locate p = .ok place) (here : d.root.bytesAt? place = some bytes) :
    d.readBytes p = .ok bytes := by
  obtain ⟨tree, present, file⟩ := Option.bind_eq_some_iff.1 here
  cases tree with
  | directory es => cases file
  | file held =>
    obtain rfl := Option.some.inj file
    rw [readBytes, found]
    dsimp only
    rw [present]

/-- Whether texts were written on a disk: each is read where it was put, and the files at all other
places are those of the disk before. -/
structure Wrote (d : Disk) (texts : PathTexts) (d' : Disk) : Prop where
  there : ∀ f ∈ texts, ∃ bytes, Utf8.encode? f.2 = some bytes ∧ d'.readBytes f.1 = .ok bytes
  others : ∀ place, (∀ f ∈ texts, d'.locate f.1 ≠ .ok place) →
    d'.root.bytesAt? place = d.root.bytesAt? place

end Disk

/-- **What is written** at different plain paths below a directory. -/
theorem Generator.writeAll_wrote {texts : PathTexts} {directory : Path}
    (below : ∀ f ∈ texts, ∃ p : Path, p.IsPlain ∧ p.parts ≠ [] ∧ f.1 = directory.join p)
    (distinct : (texts.map (·.1)).Nodup) {d : Disk} (ended : (writeAll texts d).2 = .ok ()) :
    d.Wrote texts (writeAll texts d).1 := by
  have filled : ∀ f ∈ texts, f.1.parts ≠ [] := by
    intro f mem
    obtain ⟨p, plain, some, path⟩ := below f mem
    rw [path, Path.join_eq plain.relative]
    exact List.append_ne_nil_of_right_ne_nil _ some
  obtain ⟨places, -, found, written, others⟩ := writeAll_writes filled ended
  have apart : places.Nodup := by
    refine nodup_of_forall₂ found distinct fun f mem g mem' place leads leads' => ?_
    obtain ⟨p, plain, -, path⟩ := below f mem
    obtain ⟨q, plain', -, path'⟩ := below g mem'
    rw [path] at leads
    rw [path'] at leads'
    rw [path, path', Disk.eq_of_locate_join plain plain' leads leads']
  refine ⟨fun f mem => ?_, fun place free => others place fun mem => ?_⟩
  · obtain ⟨place, -, leads, bytes, encoded, here⟩ :=
      exists_of_forall₂_left (forall₂_and found (written apart)) mem
    exact ⟨bytes, encoded, Disk.readBytes_of_bytesAt? leads here⟩
  · obtain ⟨f, listed, leads⟩ := exists_of_forall₂_right found mem
    exact free f listed leads

end ClientGen
