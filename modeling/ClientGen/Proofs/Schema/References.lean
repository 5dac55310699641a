import ClientGen.Proofs.Decl.Opening
import ClientGen.Proofs.Document.Renaming
import ClientGen.Proofs.Schema.Invariant
import ClientGen.Proofs.TypeExpr.Normal
import ClientGen.Proofs.TypeExpr.Parts

/-!
# The names that lowered types refer to

A lowered type refers to declared types only (`lower_refersTo`), and so does the declaration of a
component, if it is not the alias of a reference that names no component (`declare_component`): a
reference becomes a name only where there is a component to declare under that name, and a circle of
references is closed with the name that it began with.
-/

namespace ClientGen

/-! ### The names in a type -/

namespace TypeExpr

theorem namesOfList_eq (ts : List TypeExpr) : namesOfList ts = ts.flatMap names := by
  induction ts with
  | nil => rfl
  | cons t rest ih => simp [namesOfList, ih]

theorem namesOfMembers_eq (ms : List (Member TypeExpr)) :
    namesOfMembers ms = ms.flatMap fun m => m.type.names := by
  induction ms with
  | nil => rfl
  | cons m rest ih => simp [namesOfMembers, ih]

theorem namesOfArguments_eq (args : List (Argument TypeExpr)) :
    namesOfArguments args = args.flatMap fun a => a.type.names := by
  induction args with
  | nil => rfl
  | cons a rest ih => simp [namesOfArguments, ih]

/-- The names in a type are that of the type itself, if it is a reference, and those in its
children. -/
theorem mem_names_iff_child {t : TypeExpr} {name : String} :
    name ∈ t.names ↔ (∃ arguments, t = ref name arguments) ∨ ∃ u ∈ t.children, name ∈ u.names := by
  cases t with
  | ref other arguments => simp [names, children, namesOfList_eq, eq_comm]
  | function arguments result =>
    cases result <;>
      simp [names, children, namesOfArguments_eq, namesOfOption, or_comm]
  | _ => simp [names, children, namesOfList_eq, namesOfMembers_eq]

/-- The names in a type are those of the references that stand in it. -/
theorem mem_names_iff {t : TypeExpr} {name : String} :
    name ∈ t.names ↔ ∃ arguments, Within (ref name arguments) t := by
  induction t using inductionOnChildren with
  | step t ih =>
    rw [mem_names_iff_child]
    constructor
    · rintro (⟨arguments, rfl⟩ | ⟨u, child, mem⟩)
      · exact ⟨arguments, .here⟩
      · obtain ⟨arguments, within⟩ := (ih u child).1 mem
        exact ⟨arguments, .inside child within⟩
    · rintro ⟨arguments, within⟩
      cases within with
      | here => exact .inl ⟨arguments, rfl⟩
      | inside child within => exact .inr ⟨_, child, (ih _ child).2 ⟨arguments, within⟩⟩

/-- Whether a type refers to nothing but the names `known`. -/
def RefersTo (known : List String) (t : TypeExpr) : Prop := ∀ name ∈ t.names, name ∈ known

variable {known : List String}

theorem refersTo_named {name : String} : RefersTo known (named name) ↔ name ∈ known := by
  simp [RefersTo, named, names, namesOfList]

theorem refersTo_of_names_eq_nil {t : TypeExpr} (none : t.names = []) : RefersTo known t := by
  intro name mem
  rw [none] at mem
  exact absurd mem List.not_mem_nil

theorem refersTo_of_flatMap {α : Type} {f : α → TypeExpr} {as : List α} {t : TypeExpr}
    (names_eq : t.names = as.flatMap fun a => (f a).names) (h : ∀ a ∈ as, RefersTo known (f a)) :
    RefersTo known t := by
  intro name mem
  rw [names_eq, List.mem_flatMap] at mem
  obtain ⟨a, member, mem⟩ := mem
  exact h a member name mem

/-- What a type of a form with members refers to, its members refer to. -/
theorem SetForm.refersTo_of_mem_opened {form : List TypeExpr → TypeExpr}
    {opened : TypeExpr → List TypeExpr} (form_opens : SetForm form opened)
    (names_eq : ∀ ms, (form ms).names = namesOfList ms) {t u : TypeExpr} (h : RefersTo known t)
    (mem : u ∈ opened t) : RefersTo known u := by
  rcases form_opens.form_or_other t with ⟨ms, rfl, opens⟩ | ⟨-, opens⟩
  · intro name here
    apply h
    rw [names_eq, namesOfList_eq, List.mem_flatMap]
    exact ⟨u, opens ▸ mem, here⟩
  · rw [opens, List.mem_singleton] at mem
    rwa [mem]

theorem refersTo_unionOf {ts : List TypeExpr} (h : ∀ t ∈ ts, RefersTo known t) :
    RefersTo known (unionOf ts) := by
  have members : ∀ u ∈ orderedSet (ts.flatMap unionMembers), RefersTo known u := by
    intro u mem
    obtain ⟨t, member, mem⟩ := List.mem_flatMap.1 (mem_orderedSet.1 mem)
    exact setForm_union.refersTo_of_mem_opened (fun _ => rfl) (h t member) mem
  unfold unionOf
  split
  · exact refersTo_of_names_eq_nil rfl
  · next t single => exact members t (single ▸ List.mem_singleton_self t)
  · exact refersTo_of_flatMap (namesOfList_eq _) members

theorem refersTo_interOf {ts : List TypeExpr} (h : ∀ t ∈ ts, RefersTo known t) :
    RefersTo known (interOf ts) := by
  have members : ∀ u ∈ orderedSet (ts.flatMap interMembers), RefersTo known u := by
    intro u mem
    obtain ⟨t, member, mem⟩ := List.mem_flatMap.1 (mem_orderedSet.1 mem)
    exact setForm_inter.refersTo_of_mem_opened (fun _ => rfl) (h t member) mem
  unfold interOf
  split
  · exact refersTo_of_names_eq_nil rfl
  · next t single => exact members t (single ▸ List.mem_singleton_self t)
  · exact refersTo_of_flatMap (namesOfList_eq _) members

end TypeExpr

/-! ### The names in a declaration -/

/-- What an interface extends; other declarations extend nothing. -/
def Declaration.bases : Declaration → List String
  | interface i => i.bases
  | _ => []

theorem Declaration.names_eq (d : Declaration) :
    d.names = d.bases ++ d.types.flatMap TypeExpr.names := by
  cases d with
  | interface i => cases index : i.index <;> simp [names, bases, types, index, List.flatMap_map]
  | typeAlias a => simp [names, bases, types]
  | enumeration e => rfl

namespace Schema

open Report (Yields yields_bind)
open TypeExpr (RefersTo)

/-- The types that the components in view are declared as. -/
def Scope.typeNames (scope : Scope) : List String :=
  scope.components.map fun c => Name.typeName c.1

/-- Referring to declared types only is an invariant of the lowering. -/
theorem loweringInvariant_refersTo (scope : Scope) :
    LoweringInvariant scope (RefersTo scope.typeNames) where
  primitive _ := TypeExpr.refersTo_of_names_eq_nil rfl
  literal _ := TypeExpr.refersTo_of_names_eq_nil rfl
  component name known := by
    obtain ⟨es, known⟩ := Option.isSome_iff_exists.1 known
    obtain ⟨schema, found, -⟩ := Option.bind_eq_some_iff.1 known
    rw [TypeExpr.refersTo_named]
    exact List.mem_map.2 ⟨(name, schema), Document.mem_of_lookup found, rfl⟩
  array t h := h
  tuple ts h := TypeExpr.refersTo_of_flatMap (TypeExpr.namesOfList_eq ts) h
  object ms h := TypeExpr.refersTo_of_flatMap (TypeExpr.namesOfMembers_eq ms) h
  index key t h := h
  union ts h := TypeExpr.refersTo_unionOf h
  inter ts h := TypeExpr.refersTo_interOf h

/-- **A lowered type refers to declared types only.** -/
theorem lower_refersTo (scope : Scope) (schema : Value) :
    Yields (RefersTo scope.typeNames) (lower scope schema) :=
  (loweringInvariant_refersTo scope).lower schema

/-! ### What is declared -/

/-- Whether a declaration has the name that it was made for, and nothing that no schema asks for. -/
structure DeclaredAs (typeName : String) (d : Declaration) : Prop where
  name : d.name = typeName
  bare : d.IsBare

theorem DeclaredAs.bases {typeName : String} {d : Declaration} (h : DeclaredAs typeName d) :
    d.bases = [] := by
  cases d with
  | interface i => exact h.bare.2
  | typeAlias a => rfl
  | enumeration e => rfl

theorem declareOwn_declaredAs (scope : Scope) (typeName : String) (es : Entries) :
    Yields (DeclaredAs typeName) (declareOwn scope typeName es) := by
  unfold declareOwn
  split
  · exact yields_bind fun variants => .pure ⟨rfl, rfl⟩
  · refine yields_bind fun isInterface => ?_
    split
    · have made : Yields (fun i => i.name = typeName ∧ i.generics = [] ∧ i.bases = [])
          (declareInterface scope typeName es) :=
        yields_bind fun _ => yields_bind fun _ => yields_bind fun _ => yields_bind fun _ =>
          .pure ⟨rfl, rfl, rfl⟩
      exact made.bind fun i ⟨name, bare⟩ => .pure ⟨name, bare⟩
    · exact yields_bind fun t => .pure ⟨rfl, rfl⟩

theorem declareStep_declaredAs (scope : Scope) (typeName : String)
    {follow : Option (Stack → Option String → Value → Lowering Declaration)}
    (followed : ∀ next ∈ follow, ∀ stack hop v, Yields (DeclaredAs typeName) (next stack hop v))
    (stack : Stack) (firstHop : Option String) (v : Value) :
    Yields (DeclaredAs typeName) (declareStep scope typeName follow stack firstHop v) := by
  have unresolved : ∀ ref, Yields (DeclaredAs typeName) (declareUnresolved typeName ref) :=
    fun ref => yields_bind fun _ => .pure ⟨rfl, rfl⟩
  cases v with
  | map es =>
    refine yields_bind fun _ => ?_
    split
    · exact declareOwn_declaredAs scope typeName es
    · refine yields_bind fun ref => ?_
      dsimp only
      split
      · exact unresolved ref
      · split
        · exact yields_bind fun _ => .pure ⟨rfl, rfl⟩
        · split
          · exact followed _ rfl _ _ _
          · exact unresolved ref
  | _ => exact yields_bind fun t => .pure ⟨rfl, rfl⟩

theorem declareWithin_declaredAs (scope : Scope) (typeName : String) (links : Nat) (stack : Stack)
    (firstHop : Option String) (v : Value) :
    Yields (DeclaredAs typeName) (declareWithin scope typeName links stack firstHop v) := by
  induction links generalizing stack firstHop v with
  | zero =>
    refine declareStep_declaredAs scope typeName (fun next mem => ?_) stack firstHop v
    exact absurd mem (Option.not_mem_none next)
  | succ links ih =>
    refine declareStep_declaredAs scope typeName (fun next mem => ?_) stack firstHop v
    rw [← Option.some.inj mem]
    exact ih

theorem declare_declaredAs (scope : Scope) (stack : Stack) (name : String) (schema : Value) :
    Yields (DeclaredAs (Name.typeName name)) (declare scope stack name schema) :=
  declareWithin_declaredAs scope _ _ _ _ _

/-- Whether a declaration is an alias to a type that a reference names although there is no such
component; its documentation tells so. -/
def IsUnresolved (d : Declaration) (target : String) : Prop :=
  ∃ (a : Alias) (shown : String), d = .typeAlias a ∧ a.type = .named target ∧
    a.documentation = some ("Unresolved reference to " ++ shown)

/-- **The declaration of a component** has the name of its type, and every name in it is that of a
declared type or the target of an alias that is documented as unresolved. -/
theorem declare_component {scope : Scope} {name : String} {schema schema' : Value}
    (known : (name, schema') ∈ scope.components) :
    Yields (fun d => d.name = Name.typeName name ∧
      ∀ target ∈ d.names, target ∈ scope.typeNames ∨ IsUnresolved d target)
      (declare scope [] name schema) := by
  intro d ended
  have head := declare_declaredAs scope [] name schema d ended
  refine ⟨head.name, fun target mem => ?_⟩
  rw [d.names_eq, head.bases, List.nil_append, List.mem_flatMap] at mem
  obtain ⟨t, listed, mem⟩ := mem
  have resolving : ∀ n ∈ pushName [] name, RefersTo scope.typeNames (.named (Name.typeName n)) := by
    intro n member
    rw [List.mem_singleton.1 member, TypeExpr.refersTo_named]
    exact List.mem_map.2 ⟨(name, schema'), known, rfl⟩
  rcases (loweringInvariant_refersTo scope).declareWithin _ _ resolving
      (fun _ mem => absurd mem (Option.not_mem_none _)) _ d ended with
    all | ⟨ref, rfl⟩
  · exact .inl (all t listed target mem)
  · rw [List.mem_singleton.1 listed] at mem
    have only : target = Name.typeName (displayName ref) := by
      simpa [unresolvedAlias, TypeExpr.named, TypeExpr.names, TypeExpr.namesOfList] using mem
    exact .inr ⟨_, displayName ref, rfl, by rw [only]; rfl, rfl⟩

end Schema

end ClientGen
