import ClientGen.Proofs.Files.Places

/-!
# Directories that are put back

A directory is put back by its path, after it was emptied and deleted. This works if the path names
it by a name and does not lead through the directory itself (`IsReplaceable`), as no path with a name
and without double dots does (`isReplaceable_of_noDots`). Then the directory holds exactly what it held
(`find?_restore`). Otherwise it stays empty, and what it held is lost (`at?_restore`).
-/

namespace ClientGen.Tree

/-! ## Trees with an empty directory -/

/-- What is not at or below something keeps its kind when that is replaced. -/
theorem map_isDirectory_put {t : Tree} {place other : List String} (here : (t.at? place).isSome)
    (apart : ¬ place <+: other) (new : Tree) :
    ((put place new t).at? other).map isDirectory = (t.at? other).map isDirectory := by
  induction place generalizing t other with
  | nil => exact absurd List.nil_prefix apart
  | cons name rest ih =>
    cases t with
    | file bytes => rfl
    | directory es =>
      cases other with
      | nil => rfl
      | cons first others =>
        rw [at?_put_directory_cons, at?_directory_cons]
        split
        · next same =>
          subst same
          rw [at?_directory_cons] at here
          cases found : es.lookup first with
          | none =>
            rw [found] at here
            cases here
          | some u =>
            rw [found] at here
            exact ih here fun below => apart (List.cons_prefix_cons.2 ⟨rfl, below⟩)
        · rfl

/-- A tree extends itself with one of its directories emptied. -/
theorem extends_of_put_empty {t : Tree} {place : List String} {es : TreeEntries}
    (here : t.at? place = some (directory es)) : Extends (put place empty t) t := by
  intro other u found
  by_cases below : place <+: other
  · obtain ⟨rest, rfl⟩ := below
    rw [at?_put_append (isOpen_of_at? here)] at found
    cases rest with
    | nil =>
      obtain rfl := Option.some.inj found
      exact ⟨directory es, by rw [List.append_nil, here], rfl⟩
    | cons name rest => cases found
  · have kind := map_isDirectory_put (t := t) (by rw [here]; rfl) below empty
    rw [found] at kind
    obtain ⟨u', there, same⟩ := Option.map_eq_some_iff.1 kind.symm
    exact ⟨u', there, same⟩

/-- Whether a place is strictly below another one. -/
def IsBelow (other place : List String) : Prop := place <+: other ∧ other ≠ place

/-- Emptying a directory leaves the kind of all that is not below it. -/
theorem exists_at?_put_empty {t u : Tree} {place other : List String} {es : TreeEntries}
    (here : t.at? place = some (directory es)) (outside : ¬ IsBelow other place)
    (there : t.at? other = some u) :
    ∃ u', (put place empty t).at? other = some u' ∧ u'.isDirectory = u.isDirectory := by
  by_cases below : place <+: other
  · obtain rfl : other = place := by
      by_contra ne
      exact outside ⟨below, ne⟩
    rw [here] at there
    obtain rfl := Option.some.inj there
    exact ⟨empty, at?_put_self (isOpen_of_at? here) _, rfl⟩
  · have kind := map_isDirectory_put (t := t) (by rw [here]; rfl) below empty
    rw [there] at kind
    exact Option.map_eq_some_iff.1 kind

end ClientGen.Tree

namespace ClientGen.Disk

open Tree (IsBelow)

/-! ## Paths that lead through a directory -/

/-- Whether names lead to a place without leading through what is below it. -/
def LeadsOutside (root : Tree) (start names place : List String) : Prop :=
  ∀ before after other, names = before ++ after → Leads root start before other →
    ¬ IsBelow other place

section Emptied

variable {root : Tree} {place : List String} {es : TreeEntries}
  (here : root.at? place = some (.directory es))

include here

theorem Leads.of_emptied {start names target : List String}
    (h : Leads (Tree.put place .empty root) start names target) : Leads root start names target :=
  h.mono (Tree.extends_of_put_empty here)

theorem Leads.emptied {start names target : List String} (h : Leads root start names target)
    (outside : LeadsOutside root start names place) :
    Leads (Tree.put place .empty root) start names target := by
  have begins {start : List String} {es' : TreeEntries} {names : List String}
      (directory : root.at? start = some (.directory es'))
      (outside : LeadsOutside root start names place) :
      ∃ es'', (Tree.put place .empty root).at? start = some (.directory es'') := by
    obtain ⟨u, there, kind⟩ :=
      Tree.exists_at?_put_empty here (outside [] names start rfl (.here start)) directory
    cases u with
    | file bytes => cases kind
    | directory es'' => exact ⟨es'', there⟩
  induction h with
  | here start => exact .here start
  | @up start rest target _ directory further ih =>
    obtain ⟨es'', there⟩ := begins directory outside
    refine .up there (ih fun before after other split leads => ?_)
    exact outside (".." :: before) after other (congrArg _ split) (.up directory leads)
  | @down start rest target _ name directory noDots short present further ih =>
    obtain ⟨es'', there⟩ := begins directory outside
    refine .down there noDots short ?_ (ih fun before after other split leads => ?_)
    · -- The next place is outside as well, so that it is still there.
      rw [← Tree.at?_append_singleton directory] at present
      obtain ⟨u, known⟩ := Option.isSome_iff_exists.1 present
      have next : ¬ IsBelow (start ++ [name]) place := by
        rw [Tree.at?_append_singleton directory] at present
        exact outside [name] rest _ rfl (.down directory noDots short present (.here _))
      obtain ⟨u', still, -⟩ := Tree.exists_at?_put_empty here next known
      rw [← Tree.at?_append_singleton there, still]
      rfl
    · exact outside (name :: before) after other (congrArg _ split)
        (.down directory noDots short present leads)

/-- Names lead to a directory that was emptied exactly if they do not lead through it. -/
theorem leads_emptied_iff {start names : List String} (h : Leads root start names place) :
    Leads (Tree.put place .empty root) start names place ↔
      LeadsOutside root start names place := by
  refine ⟨fun emptied before after other split leads below => ?_, h.emptied here⟩
  subst split
  obtain ⟨middle, first, second⟩ := emptied.exists_middle
  obtain rfl := leads.unique (first.of_emptied here)
  -- Below what was emptied there is nothing to go on from.
  have nothing : (Tree.put place .empty root).at? other = none := by
    obtain ⟨⟨rest, rfl⟩, ne⟩ := below
    rw [Tree.at?_put_append (Tree.isOpen_of_at? here)]
    cases rest with
    | nil => exact absurd (List.append_nil place) ne
    | cons name rest => rfl
  cases second with
  | here => exact below.2 rfl
  | up directory _ =>
    rw [nothing] at directory
    cases directory
  | down directory _ _ _ _ =>
    rw [nothing] at directory
    cases directory

end Emptied

/-! ## Putting a directory back -/

/-- Whether the directory at a place can be deleted by a path and made anew: the path ends in a name,
and it does not lead through what is in the directory. -/
structure IsReplaceable (d : Disk) (p : Path) (place : List String) : Prop where
  named : p.parts ≠ []
  outside : LeadsOutside d.root (d.start p) (namesOf p) place

/-- A path with a name and without double dots leads straight down to its directory. -/
theorem isReplaceable_of_noDots {d : Disk} {p : Path} {place : List String}
    (found : d.locate p = .ok place) (named : p.parts ≠ []) (noDots : ".." ∉ namesOf p) :
    IsReplaceable d p place := by
  refine ⟨named, fun before after other split leads => ?_⟩
  have straight := (locate_eq_ok_iff.1 found).2.eq_append noDots
  have first := leads.eq_append fun mem => noDots (split ▸ List.mem_append_left _ mem)
  rintro ⟨⟨rest, below⟩, ne⟩
  have within : other <+: place := ⟨after, by rw [straight, first, split, List.append_assoc]⟩
  refine ne (within.eq_of_length_le ?_)
  rw [← below, List.length_append]
  omega

/-- Where a path leads to is the same on a disk that holds more, and so is what it leads through. -/
theorem LeadsOutside.mono {root root' : Tree} {start names place : List String}
    (more : Tree.Extends root root') (h : Leads root start names place) :
    LeadsOutside root' start names place ↔ LeadsOutside root start names place := by
  have same {before after other : List String} (split : names = before ++ after) :
      Leads root' start before other ↔ Leads root start before other := by
    obtain ⟨middle, first, -⟩ := (split ▸ h).exists_middle
    constructor
    · intro leads
      rwa [leads.unique (first.mono more)]
    · exact fun leads => leads.mono more
  constructor
  · exact fun outside before after other split leads =>
      outside before after other split ((same split).2 leads)
  · exact fun outside before after other split leads =>
      outside before after other split ((same split).1 leads)

theorem find?_eq {d : Disk} {p : Path} {place : List String} (found : d.locate p = .ok place) :
    d.find? p = d.root.at? place := by
  rw [find?, found]

section Restore

variable {d d' : Disk} {p : Path} {place : List String} {es : TreeEntries}
  (found : d.locate p = .ok place) (here : d.root.at? place = some (.directory es))
  (more : Extends d d')

include found here more

/-- The place that the path leads to after the directory was emptied, if it leads anywhere. -/
theorem locate_emptied_iff {target : List String} :
    (d'.put place .empty).locate p = .ok target ↔
      target = place ∧ LeadsOutside d.root (d.start p) (namesOf p) place := by
  obtain ⟨es', here'⟩ := more.root.directory here
  obtain ⟨possible, leads⟩ := locate_eq_ok_iff.1 found
  have leads' : Leads d'.root (d.start p) (namesOf p) place := leads.mono more.root
  have start : (d'.put place .empty).start p = d.start p := more.start p
  have root : (d'.put place .empty).root = Tree.put place .empty d'.root := rfl
  rw [locate_eq_ok_iff, start, root, ← LeadsOutside.mono more.root leads,
    ← leads_emptied_iff here' leads']
  constructor
  · rintro ⟨-, emptied⟩
    obtain rfl := (emptied.of_emptied here').unique leads'
    exact ⟨rfl, emptied⟩
  · rintro ⟨rfl, emptied⟩
    exact ⟨possible, emptied⟩

/-- A directory that can be replaced holds again what was kept. -/
theorem find?_restore (replaceable : IsReplaceable d p place) (kept : TreeEntries) :
    (d'.restore p (.directory kept)).1.find? p = some (.directory kept) ∧
      (d'.restore p (.directory kept)).2 = .ok () := by
  obtain ⟨es', here'⟩ := more.root.directory here
  have again : (d'.put place .empty).locate p = .ok place :=
    (locate_emptied_iff found here more).2 ⟨rfl, replaceable.outside⟩
  have emptied : (d'.put place .empty).root.at? place = some .empty :=
    Tree.at?_put_self (Tree.isOpen_of_at? here') _
  have restored : d'.restore p (.directory kept) =
      ((d'.put place .empty).put place (.directory kept), .ok ()) := by
    rw [restore, locate_of_extends more found]
    dsimp only
    rw [if_neg (by simpa using replaceable.named), again]
  have last : Extends (d'.put place .empty) ((d'.put place .empty).put place (.directory kept)) := by
    refine .put fun u known => ?_
    rw [emptied] at known
    obtain rfl := Option.some.inj known
    exact Tree.extends_of_plain (.inl rfl) rfl
  rw [restored]
  refine ⟨?_, rfl⟩
  rw [find?_eq (locate_of_extends last again)]
  exact Tree.at?_put_self (Tree.isOpen_of_at? emptied) _

/-- A directory that cannot be replaced stays empty. -/
theorem at?_restore (stuck : ¬ IsReplaceable d p place) (kept : Tree) :
    (d'.restore p kept).1.root.at? place = some .empty ∧
      ∃ refusal, (d'.restore p kept).2 = .error refusal := by
  obtain ⟨es', here'⟩ := more.root.directory here
  have emptied : (d'.put place .empty).root.at? place = some .empty :=
    Tree.at?_put_self (Tree.isOpen_of_at? here') _
  rw [restore, locate_of_extends more found]
  dsimp only
  split
  · exact ⟨emptied, _, rfl⟩
  · next named =>
    split
    · exact ⟨emptied, _, rfl⟩
    · next target again =>
      obtain ⟨-, outside⟩ := (locate_emptied_iff found here more).1 again
      exact absurd ⟨by simpa using named, outside⟩ stuck

end Restore

end ClientGen.Disk
