import ClientGen.Files.Tree
import ClientGen.Proofs.Lists.Lookup

/-!
# Trees that something was put into

What is found in a tree after another one was put at a place: there it is the other tree
(`at?_put_append`), and the files elsewhere are the same (`bytesAt?_put_of_not_prefix`). As long as a
directory takes the place of a directory only, and a file that of a file, nothing that was there is
gone (`extends_put`).
-/

namespace ClientGen

theorem TreeEntries.lookup_set (name : String) (t : Tree) (es : TreeEntries) (other : String) :
    (TreeEntries.set name t es).lookup other = if other = name then some t else es.lookup other := by
  have same : TreeEntries.set name t es = Schema.setPair name t es := by
    induction es with
    | nil => rfl
    | cons e rest ih => rw [TreeEntries.set, Schema.setPair, ih]
  rw [same, lookup_setPair]

namespace Tree

/-! ### Looking into a tree -/

@[simp] theorem at?_nil (t : Tree) : t.at? [] = some t := rfl

theorem at?_file_cons (bytes : List UInt8) (name : String) (rest : List String) :
    (file bytes).at? (name :: rest) = none := rfl

theorem at?_directory_cons (es : TreeEntries) (name : String) (rest : List String) :
    (directory es).at? (name :: rest) = (es.lookup name).bind (at? rest) := rfl

theorem at?_append (place rest : List String) (t : Tree) :
    t.at? (place ++ rest) = (t.at? place).bind (at? rest) := by
  induction place generalizing t with
  | nil => rfl
  | cons name place ih =>
    cases t with
    | file bytes => rfl
    | directory es =>
      rw [List.cons_append, at?_directory_cons, at?_directory_cons]
      cases es.lookup name with
      | none => rfl
      | some u => exact ih u

/-- What a directory holds under a name. -/
theorem at?_append_singleton {t : Tree} {place : List String} {es : TreeEntries}
    (here : t.at? place = some (directory es)) (name : String) :
    t.at? (place ++ [name]) = es.lookup name := by
  rw [at?_append, here]
  exact Option.bind_fun_some (es.lookup name)

theorem at?_empty_cons (name : String) (rest : List String) : empty.at? (name :: rest) = none := rfl

/-- The bytes of the file at a place. -/
def bytesAt? (place : List String) (t : Tree) : Option (List UInt8) :=
  (t.at? place).bind fun
    | file bytes => some bytes
    | directory _ => none

theorem bytesAt?_directory_cons (es : TreeEntries) (name : String) (rest : List String) :
    (directory es).bytesAt? (name :: rest) = (es.lookup name).bind (bytesAt? rest) := by
  rw [bytesAt?, at?_directory_cons]
  cases es.lookup name <;> rfl

theorem bytesAt?_empty (place : List String) : empty.bytesAt? place = none := by
  cases place <;> rfl

/-! ### Putting something into a tree -/

/-- Whether no file stands on the way to a place. -/
def IsOpen : (place : List String) → Tree → Prop
  | [], _ => True
  | _ :: _, file _ => False
  | name :: rest, directory es => IsOpen rest ((es.lookup name).getD empty)

theorem isOpen_empty (place : List String) : empty.IsOpen place := by
  induction place with
  | nil => trivial
  | cons name rest ih => exact ih

/-- The way to a name in a directory is open. -/
theorem isOpen_append_singleton {t : Tree} {place : List String} {es : TreeEntries}
    (here : t.at? place = some (directory es)) (name : String) : t.IsOpen (place ++ [name]) := by
  induction place generalizing t with
  | nil =>
    obtain rfl := Option.some.inj here
    trivial
  | cons first rest ih =>
    cases t with
    | file bytes => cases here
    | directory entries =>
      rw [at?_directory_cons] at here
      obtain ⟨u, found, here⟩ := Option.bind_eq_some_iff.1 here
      change IsOpen (rest ++ [name]) ((entries.lookup first).getD empty)
      rw [found]
      exact ih here

/-- The way to what is there is open. -/
theorem isOpen_of_at? {t u : Tree} {place : List String} (here : t.at? place = some u) :
    t.IsOpen place := by
  induction place generalizing t with
  | nil => trivial
  | cons first rest ih =>
    cases t with
    | file bytes => cases here
    | directory entries =>
      rw [at?_directory_cons] at here
      obtain ⟨v, found, here⟩ := Option.bind_eq_some_iff.1 here
      change IsOpen rest ((entries.lookup first).getD empty)
      rw [found]
      exact ih here

/-- What is at a place after something was put below a name of a directory. -/
theorem at?_put_directory_cons (name : String) (rest : List String) (new : Tree) (es : TreeEntries)
    (other : String) (place : List String) :
    (put (name :: rest) new (directory es)).at? (other :: place) =
      if other = name then (put rest new ((es.lookup name).getD empty)).at? place
      else (es.lookup other).bind (at? place) := by
  rw [put, at?_directory_cons, TreeEntries.lookup_set]
  split <;> rfl

/-- Where something was put, it is found. -/
theorem at?_put_append {t : Tree} {place : List String} (free : t.IsOpen place) (new : Tree)
    (rest : List String) : (put place new t).at? (place ++ rest) = new.at? rest := by
  induction place generalizing t with
  | nil => rfl
  | cons name place ih =>
    cases t with
    | file bytes => exact free.elim
    | directory es => rw [List.cons_append, at?_put_directory_cons, if_pos rfl, ih free]

theorem at?_put_self {t : Tree} {place : List String} (free : t.IsOpen place) (new : Tree) :
    (put place new t).at? place = some new := by
  simpa using at?_put_append free new []

/-- The files that are not at or below a place stay when something is put there. -/
theorem bytesAt?_put_of_not_prefix {place other : List String} (apart : ¬ place <+: other)
    (new t : Tree) : (put place new t).bytesAt? other = t.bytesAt? other := by
  induction place generalizing t other with
  | nil => exact absurd List.nil_prefix apart
  | cons name rest ih =>
    cases t with
    | file bytes => rfl
    | directory es =>
      cases other with
      | nil => rfl
      | cons first others =>
        rw [bytesAt?, at?_put_directory_cons, bytesAt?_directory_cons]
        split
        · next same =>
          subst same
          have apart : ¬ rest <+: others := fun below =>
            apart (List.cons_prefix_cons.2 ⟨rfl, below⟩)
          refine (ih apart _).trans ?_
          cases es.lookup first with
          | none => exact bytesAt?_empty others
          | some u => rfl
        · cases es.lookup first <;> rfl

/-! ### Trees that hold more -/

/-- Whether a tree has a directory wherever another one has a directory, and a file wherever it has a
file. -/
def Extends (t t' : Tree) : Prop :=
  ∀ place u, t.at? place = some u →
    ∃ u', t'.at? place = some u' ∧ u'.isDirectory = u.isDirectory

theorem Extends.refl (t : Tree) : Extends t t := fun _ u here => ⟨u, here, rfl⟩

theorem Extends.trans {t u v : Tree} (h : Extends t u) (h' : Extends u v) : Extends t v := by
  intro place w here
  obtain ⟨x, there, kind⟩ := h place w here
  obtain ⟨y, last, kind'⟩ := h' place x there
  exact ⟨y, last, kind'.trans kind⟩

theorem Extends.directory {t t' : Tree} (h : Extends t t') {place : List String}
    {es : TreeEntries} (here : t.at? place = some (directory es)) :
    ∃ es', t'.at? place = some (directory es') := by
  obtain ⟨u', there, kind⟩ := h place _ here
  cases u' with
  | file bytes => cases kind
  | directory es' => exact ⟨es', there⟩

theorem Extends.isSome {t t' : Tree} (h : Extends t t') {place : List String}
    (here : (t.at? place).isSome) : (t'.at? place).isSome := by
  obtain ⟨u, found⟩ := Option.isSome_iff_exists.1 here
  obtain ⟨u', there, -⟩ := h place u found
  rw [there, Option.isSome_some]

/-- A directory holds at least as much as the empty one, and a file as any other. -/
theorem extends_of_plain {t t' : Tree} (plain : t = empty ∨ ∃ bytes, t = file bytes)
    (kind : t'.isDirectory = t.isDirectory) : Extends t t' := by
  intro place u here
  cases place with
  | nil =>
    obtain rfl := Option.some.inj here
    exact ⟨t', rfl, kind⟩
  | cons name rest =>
    rcases plain with rfl | ⟨bytes, rfl⟩
    · cases here
    · cases here

/-- A tree in which something took the place of what it extends, or of nothing, extends the tree. -/
theorem extends_put {t new : Tree} {place : List String}
    (known : ∀ u, t.at? place = some u → Extends u new) : Extends t (put place new t) := by
  induction place generalizing t with
  | nil => exact known t rfl
  | cons name rest ih =>
    cases t with
    | file bytes => exact .refl _
    | directory es =>
      intro other u here
      cases other with
      | nil =>
        obtain rfl := Option.some.inj here
        exact ⟨_, rfl, rfl⟩
      | cons first others =>
        rw [at?_directory_cons] at here
        rw [at?_put_directory_cons]
        obtain ⟨v, found, here⟩ := Option.bind_eq_some_iff.1 here
        split
        · next same =>
          subst same
          rw [found]
          refine ih (fun w below => known w ?_) others u here
          rw [at?_directory_cons, found]
          exact below
        · exact ⟨u, by rw [found]; exact here, rfl⟩

end Tree

end ClientGen
