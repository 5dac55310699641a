import ClientGen.Files.Disk
import ClientGen.Proofs.Files.Tree

/-!
# Places that paths lead to

A path is followed name by name, and each name needs a directory to be looked up in (`Leads`). On a
disk that holds more a path that was followed leads to the same place (`locate_of_extends`). Names
without double dots lead straight down (`Leads.eq_append`), so that what stands below a path is found
below its place (`exists_of_locate_join`).
-/

namespace ClientGen.Disk

/-! ## Names -/

/-- Whether names lead from one place of a tree to another. -/
inductive Leads (root : Tree) : (place names target : List String) → Prop
  | here (place : List String) : Leads root place [] place
  | up {place rest target : List String} {es : TreeEntries}
    (directory : root.at? place = some (.directory es))
    (further : Leads root place.dropLast rest target) : Leads root place (".." :: rest) target
  | down {place rest target : List String} {es : TreeEntries} {name : String}
    (directory : root.at? place = some (.directory es)) (noDots : name ≠ "..")
    (short : isTooLong name = false) (there : (es.lookup name).isSome)
    (further : Leads root (place ++ [name]) rest target) : Leads root place (name :: rest) target

theorem walk_eq_ok_iff {root : Tree} {place names target : List String} :
    walk root place names = .ok target ↔ Leads root place names target := by
  induction names generalizing place with
  | nil =>
    constructor
    · rintro ⟨⟩
      exact .here _
    · rintro ⟨⟩
      rfl
  | cons name rest ih =>
    rw [walk]
    constructor
    · intro walked
      split at walked
      · next es directory =>
        split at walked
        · next dots =>
          subst dots
          exact .up directory (ih.1 walked)
        · next noDots =>
          split at walked
          · cases walked
          · next short =>
            split at walked
            · next there => exact .down directory noDots (by simpa using short) there (ih.1 walked)
            · cases walked
      · cases walked
      · cases walked
    · intro leads
      cases leads with
      | up directory further =>
        simp only [directory]
        rw [if_pos trivial]
        exact ih.2 further
      | down directory noDots short there further =>
        simp only [directory]
        rw [if_neg noDots, if_neg (by simp [short]), if_pos there]
        exact ih.2 further

namespace Leads

variable {root root' : Tree} {place target names rest : List String}

theorem unique {other : List String} (h : Leads root place names target)
    (h' : Leads root place names other) : target = other :=
  Except.ok.inj ((walk_eq_ok_iff.2 h).symm.trans (walk_eq_ok_iff.2 h'))

theorem append {middle : List String} (h : Leads root place names middle)
    (h' : Leads root middle rest target) : Leads root place (names ++ rest) target := by
  induction h with
  | here place => exact h'
  | up directory _ ih => exact .up directory (ih h')
  | down directory noDots short there _ ih => exact .down directory noDots short there (ih h')

/-- Names lead somewhere by way of the place that the first ones lead to. -/
theorem exists_middle (h : Leads root place (names ++ rest) target) :
    ∃ middle, Leads root place names middle ∧ Leads root middle rest target := by
  induction names generalizing place with
  | nil => exact ⟨place, .here place, h⟩
  | cons name names ih =>
    cases h with
    | up directory further =>
      obtain ⟨middle, first, second⟩ := ih further
      exact ⟨middle, .up directory first, second⟩
    | down directory noDots short there further =>
      obtain ⟨middle, first, second⟩ := ih further
      exact ⟨middle, .down directory noDots short there first, second⟩

/-- Names lead to the same place in a tree that holds more. -/
theorem mono (h : Leads root place names target) (more : Tree.Extends root root') :
    Leads root' place names target := by
  induction h with
  | here place => exact .here place
  | up directory _ ih =>
    obtain ⟨es', directory'⟩ := more.directory directory
    exact .up directory' ih
  | down directory noDots short there _ ih =>
    obtain ⟨es', directory'⟩ := more.directory directory
    refine .down directory' noDots short ?_ ih
    rw [← Tree.at?_append_singleton directory']
    rw [← Tree.at?_append_singleton directory] at there
    exact more.isSome there

/-- Names without double dots lead straight down. -/
theorem eq_append (h : Leads root place names target) (plain : ".." ∉ names) :
    target = place ++ names := by
  induction h with
  | here place => simp
  | up => exact absurd List.mem_cons_self plain
  | down _ _ _ _ _ ih =>
    rw [ih fun mem => plain (List.mem_cons_of_mem _ mem), List.append_assoc]
    rfl

/-- Where names lead there is something. -/
theorem isSome (h : Leads root place names target) (here : (root.at? place).isSome) :
    (root.at? target).isSome := by
  induction h with
  | here place => exact here
  | @up place _ _ es directory _ ih =>
    refine ih ?_
    rcases List.eq_nil_or_concat place with rfl | ⟨parent, name, rfl⟩
    · exact here
    · rw [List.concat_eq_append, Tree.at?_append] at here
      rw [List.concat_eq_append, List.dropLast_concat]
      cases parent : root.at? parent with
      | none =>
        rw [parent] at here
        cases here
      | some u => rfl
  | down directory _ _ there _ ih =>
    refine ih ?_
    rwa [Tree.at?_append_singleton directory]

/-- Names begin at a directory. -/
theorem isSome_of_ne_nil (h : Leads root place names target) (filled : names ≠ []) :
    (root.at? target).isSome := by
  have begins : (root.at? place).isSome := by
    cases h with
    | here => exact absurd rfl filled
    | up directory _ =>
      rw [directory]
      rfl
    | down directory _ _ _ _ =>
      rw [directory]
      rfl
  exact h.isSome begins

end Leads

/-! ## Paths -/

theorem locate_eq_ok_iff {d : Disk} {p : Path} {place : List String} :
    d.locate p = .ok place ↔
      pathFault? p = none ∧ Leads d.root (d.start p) (namesOf p) place := by
  rw [locate, ← walk_eq_ok_iff]
  cases pathFault? p with
  | none => simp
  | some fault => simp

/-- Whether a disk holds at least what another one does. -/
structure Extends (d d' : Disk) : Prop where
  home : d'.home = d.home
  root : Tree.Extends d.root d'.root

namespace Extends

variable {d d' d'' : Disk}

theorem refl (d : Disk) : Extends d d := ⟨rfl, .refl _⟩

theorem trans (h : Extends d d') (h' : Extends d' d'') : Extends d d'' :=
  ⟨h'.home.trans h.home, h.root.trans h'.root⟩

theorem start (h : Extends d d') (p : Path) : d'.start p = d.start p := by
  rw [Disk.start, Disk.start, h.home]

theorem put {place : List String} {new : Tree}
    (known : ∀ u, d.root.at? place = some u → Tree.Extends u new) : Extends d (d.put place new) :=
  ⟨rfl, Tree.extends_put known⟩

end Extends

/-- A path leads to the same place on a disk that holds more. -/
theorem locate_of_extends {d d' : Disk} (more : Extends d d') {p : Path} {place : List String}
    (found : d.locate p = .ok place) : d'.locate p = .ok place := by
  obtain ⟨possible, leads⟩ := locate_eq_ok_iff.1 found
  refine locate_eq_ok_iff.2 ⟨possible, ?_⟩
  rw [more.start]
  exact leads.mono more.root

/-- What is below a path by names without double dots is below its place. -/
theorem exists_of_locate_join {d : Disk} {p q : Path} (relative : q.root = "")
    (plain : ".." ∉ namesOf q) {place : List String} (found : d.locate (p.join q) = .ok place) :
    ∃ base, Leads d.root (d.start p) (namesOf p) base ∧ place = base ++ namesOf q := by
  have joined : p.join q = { p with parts := p.parts ++ q.parts } := by
    rw [Path.join, relative]
    rfl
  obtain ⟨-, leads⟩ := locate_eq_ok_iff.1 found
  rw [joined, namesOf, List.map_append] at leads
  obtain ⟨base, first, second⟩ := leads.exists_middle
  exact ⟨base, first, second.eq_append plain⟩

end ClientGen.Disk
