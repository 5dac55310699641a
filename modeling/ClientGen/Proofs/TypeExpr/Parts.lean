import ClientGen.TypeExpr.Layout
import ClientGen.TypeExpr.Normal

/-!
# The parts of a type

A type is made of other types (`children`), and so of all that stand in it at any depth (`Within`).
Induction on types goes by their children (`inductionOnChildren`), whatever the form, and what holds
at every depth holds of a type and at every depth of its children (`everywhere_iff`). Unions and
intersections are forms of types with members (`SetForm`), which are opened in one way. The layouts
of types, parameters and properties in a list are found one by one, and what is kept by putting
layouts together holds of the layouts of all types (`LaysTypes.doc`).
-/

namespace ClientGen.TypeExpr

/-- The types that a type is directly made of, from left to right. -/
def children : TypeExpr → List TypeExpr
  | ref _ arguments => arguments
  | array element => [element]
  | tuple elements => elements
  | object members => members.map (·.type)
  | union members => members
  | inter members => members
  | function arguments result => arguments.map (·.type) ++ result.toList
  | index _ value => [value]
  | _ => []

theorem sizeOf_lt_of_mem_children {t u : TypeExpr} (h : u ∈ t.children) :
    sizeOf u < sizeOf t := by
  cases t with
  | primitive p => exact absurd h List.not_mem_nil
  | literal s => exact absurd h List.not_mem_nil
  | generic name => exact absurd h List.not_mem_nil
  | ref name arguments =>
    have smaller := List.sizeOf_lt_of_mem h
    rw [children] at smaller
    rw [ref.sizeOf_spec]
    omega
  | array element =>
    rw [children, List.mem_singleton] at h
    rw [h, array.sizeOf_spec]
    omega
  | tuple elements =>
    have smaller := List.sizeOf_lt_of_mem h
    rw [children] at smaller
    rw [tuple.sizeOf_spec]
    omega
  | object members =>
    obtain ⟨m, mem, rfl⟩ := List.mem_map.1 h
    have smaller := List.sizeOf_lt_of_mem mem
    rw [Member.mk.sizeOf_spec] at smaller
    rw [object.sizeOf_spec]
    omega
  | union members =>
    have smaller := List.sizeOf_lt_of_mem h
    rw [children] at smaller
    rw [union.sizeOf_spec]
    omega
  | inter members =>
    have smaller := List.sizeOf_lt_of_mem h
    rw [children] at smaller
    rw [inter.sizeOf_spec]
    omega
  | function arguments result =>
    rw [function.sizeOf_spec]
    rcases List.mem_append.1 h with argument | returned
    · obtain ⟨a, mem, rfl⟩ := List.mem_map.1 argument
      have smaller := List.sizeOf_lt_of_mem mem
      rw [Argument.mk.sizeOf_spec] at smaller
      omega
    · rw [Option.mem_toList] at returned
      rw [returned, Option.some.sizeOf_spec]
      omega
  | index key value =>
    rw [children, List.mem_singleton] at h
    rw [h, index.sizeOf_spec]
    omega

/-- What holds of a type whenever it holds of its children holds of all types. -/
theorem inductionOnChildren {motive : TypeExpr → Prop}
    (step : ∀ t, (∀ u ∈ t.children, motive u) → motive t) (t : TypeExpr) : motive t :=
  step t fun u _ => inductionOnChildren step u
termination_by sizeOf t
decreasing_by exact sizeOf_lt_of_mem_children ‹_›

/-! ### At every depth -/

/-- Whether a type stands in another, at any depth. A type stands in itself. -/
inductive Within (u : TypeExpr) : TypeExpr → Prop
  | here : Within u u
  | inside {t v : TypeExpr} : v ∈ t.children → Within u v → Within u t

/-- Whether something holds of a type and of all that stand in it. -/
def Everywhere (P : TypeExpr → Prop) (t : TypeExpr) : Prop := ∀ u, Within u t → P u

theorem everywhere_iff {P : TypeExpr → Prop} {t : TypeExpr} :
    Everywhere P t ↔ P t ∧ ∀ u ∈ t.children, Everywhere P u := by
  constructor
  · intro h
    exact ⟨h t .here, fun u child v within => h v (.inside child within)⟩
  · rintro ⟨top, below⟩ u within
    cases within with
    | here => exact top
    | inside child within => exact below _ child u within

/-- What holds at every depth of a type without children is that it holds of the type. -/
theorem everywhere_of_no_children {P : TypeExpr → Prop} {t : TypeExpr} (none : t.children = [])
    (h : P t) : Everywhere P t :=
  everywhere_iff.2 ⟨h, by simp [none]⟩

/-! ### Forms that have members -/

/-- A form of types with members, and the function that opens a type of this form into them. -/
structure SetForm (form : List TypeExpr → TypeExpr) (opened : TypeExpr → List TypeExpr) : Prop where
  children_form : ∀ ms, (form ms).children = ms
  opened_form : ∀ ms, opened (form ms) = ms
  opened_other : ∀ t, (∀ ms, t ≠ form ms) → opened t = [t]

theorem setForm_union : SetForm union unionMembers where
  children_form _ := rfl
  opened_form _ := rfl
  opened_other t other := by
    cases t with
    | union ms => exact absurd rfl (other ms)
    | _ => rfl

theorem setForm_inter : SetForm inter interMembers where
  children_form _ := rfl
  opened_form _ := rfl
  opened_other t other := by
    cases t with
    | inter ms => exact absurd rfl (other ms)
    | _ => rfl

namespace SetForm

variable {form : List TypeExpr → TypeExpr} {opened : TypeExpr → List TypeExpr}
  {P : TypeExpr → Prop} {t u : TypeExpr}

/-- A type has the form, or it is all that it is opened into. -/
theorem form_or_other (h : SetForm form opened) (t : TypeExpr) :
    (∃ ms, t = form ms ∧ opened t = ms) ∨ (∀ ms, t ≠ form ms) ∧ opened t = [t] := by
  by_cases formed : ∃ ms, t = form ms
  · obtain ⟨ms, rfl⟩ := formed
    exact .inl ⟨ms, rfl, h.opened_form ms⟩
  · have other : ∀ ms, t ≠ form ms := fun ms same => formed ⟨ms, same⟩
    exact .inr ⟨other, h.opened_other t other⟩

/-- What a type is opened into is as all types in it are, and has another form if no member of the
form has it. -/
theorem of_mem_opened (h : SetForm form opened)
    (others : ∀ ms, P (form ms) → ∀ m ∈ ms, ∀ inner, m ≠ form inner) (all : Everywhere P t)
    (mem : u ∈ opened t) : Everywhere P u ∧ ∀ inner, u ≠ form inner := by
  rcases h.form_or_other t with ⟨ms, rfl, opens⟩ | ⟨other, opens⟩
  · obtain ⟨top, below⟩ := everywhere_iff.1 all
    rw [opens] at mem
    rw [h.children_form] at below
    exact ⟨below u mem, others ms top u mem⟩
  · rw [opens, List.mem_singleton] at mem
    rw [mem]
    exact ⟨all, other⟩

/-- A type is opened into some types if the form has some members. -/
theorem opened_ne_nil (h : SetForm form opened) (some : ∀ ms, P (form ms) → ms ≠ []) (here : P t) :
    opened t ≠ [] := by
  rcases h.form_or_other t with ⟨ms, rfl, opens⟩ | ⟨-, opens⟩
  · rw [opens]
    exact some ms here
  · rw [opens]
    exact List.cons_ne_nil t []

end SetForm

/-! ### Layouts of parts -/

/-- The layout of a parameter of a function type. -/
def argumentDoc (a : Argument TypeExpr) : Doc :=
  .text a.name ++ .text (if a.isOptional then "?: " else ": ") ++ a.type.doc

/-- The layout of a property of an object type. -/
def memberDoc (m : Member TypeExpr) : Doc :=
  .text (memberHead m.name m.isOptional m.isReadonly) ++ m.type.doc

theorem docs_eq (ts : List TypeExpr) : docs ts = ts.map doc := by
  induction ts with
  | nil => rfl
  | cons t ts ih => rw [docs, ih, List.map_cons]

theorem unionDocs_eq (ts : List TypeExpr) :
    unionDocs ts = ts.map fun t => parenthesized t.wrapsInUnion t.doc := by
  induction ts with
  | nil => rfl
  | cons t ts ih => rw [unionDocs, ih, List.map_cons]

theorem interDocs_eq (ts : List TypeExpr) :
    interDocs ts = ts.map fun t => parenthesized t.wrapsInInter t.doc := by
  induction ts with
  | nil => rfl
  | cons t ts ih => rw [interDocs, ih, List.map_cons]

theorem argumentDocs_eq (as : List (Argument TypeExpr)) : argumentDocs as = as.map argumentDoc := by
  induction as with
  | nil => rfl
  | cons a as ih =>
    rw [argumentDocs, ih, List.map_cons]
    rfl

theorem memberDocs_eq (ms : List (Member TypeExpr)) : memberDocs ms = ms.map memberDoc := by
  induction ms with
  | nil => rfl
  | cons m ms ih =>
    rw [memberDocs, ih, List.map_cons]
    rfl

/-- Whether a kind of documents has all texts, and all that is put together from its documents where
types are laid out. -/
structure LaysTypes (P : Doc → Prop) : Prop where
  nil : P .nil
  text : ∀ s, P (.text s)
  append : ∀ {a b}, P a → P b → P (a ++ b)
  block : ∀ {members}, (∀ m ∈ members, P m) → ∀ spread, P (memberBlock members spread)

namespace LaysTypes

variable {P : Doc → Prop}

theorem intersperse (h : LaysTypes P) (separator : String) {ds : List Doc} (all : ∀ d ∈ ds, P d) :
    P (Doc.intersperse (.text separator) ds) := by
  induction ds with
  | nil => exact h.nil
  | cons d ds ih =>
    obtain ⟨first, others⟩ := List.forall_mem_cons.1 all
    cases ds with
    | nil => exact first
    | cons e ds => exact h.append (h.append first (h.text separator)) (ih others)

theorem parenthesized (h : LaysTypes P) {d : Doc} (inner : P d) (needed : Bool) :
    P (TypeExpr.parenthesized needed d) := by
  rw [TypeExpr.parenthesized]
  split
  · exact h.append (h.append (h.text "(") inner) (h.text ")")
  · exact inner

/-- The layouts of types are of the kind. -/
theorem doc (h : LaysTypes P) (t : TypeExpr) : P t.doc := by
  induction t using inductionOnChildren with
  | step t ih =>
  cases t with
  | primitive p => exact h.text _
  | generic name => exact h.text _
  | literal text => exact h.text _
  | ref name arguments =>
    cases arguments with
    | nil => exact h.text _
    | cons a as =>
      rw [TypeExpr.doc, ← docs, docs_eq]
      exact h.append (h.append (h.text _) (h.intersperse ", " (List.forall_mem_map.2 ih)))
        (h.text ">")
  | array element =>
    exact h.append (h.append (h.text _) (ih element List.mem_cons_self)) (h.text _)
  | tuple elements =>
    rw [TypeExpr.doc, docs_eq]
    exact h.append (h.append (h.text _) (h.intersperse ", " (List.forall_mem_map.2 ih)))
      (h.text "]")
  | union members =>
    rw [TypeExpr.doc, unionDocs_eq]
    exact h.intersperse " | " (List.forall_mem_map.2 fun t mem => h.parenthesized (ih t mem) _)
  | inter members =>
    rw [TypeExpr.doc, interDocs_eq]
    exact h.intersperse " & " (List.forall_mem_map.2 fun t mem => h.parenthesized (ih t mem) _)
  | function arguments result =>
    have argument : ∀ a ∈ arguments, P (argumentDoc a) := fun a mem =>
      h.append (h.append (h.text _) (h.text _))
        (ih a.type (List.mem_append_left _ (List.mem_map_of_mem mem)))
    have returned : P (resultDoc result) := by
      cases result with
      | none => exact h.text _
      | some t => exact ih t (List.mem_append_right _ List.mem_cons_self)
    rw [TypeExpr.doc, argumentDocs_eq]
    exact h.append (h.append (h.append (h.text _)
      (h.intersperse ", " (List.forall_mem_map.2 argument))) (h.text _)) returned
  | object members =>
    rw [TypeExpr.doc, memberDocs_eq]
    refine h.block (List.forall_mem_map.2 fun m mem => ?_) _
    exact h.append (h.text _) (ih m.type (List.mem_map_of_mem mem))
  | index key value =>
    have inner := h.append (h.text (indexHead key)) (ih value List.mem_cons_self)
    exact h.append (h.append (h.text _) inner) (h.text _)

end LaysTypes

end ClientGen.TypeExpr
