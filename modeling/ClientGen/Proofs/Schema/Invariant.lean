import ClientGen.Proofs.Report.Matching
import ClientGen.Proofs.Schema.Parts
import ClientGen.Schema.Declare

/-!
# What holds of all lowered types

A property of types that the types of single values and of references have, and that passes from
types to what is put together from them, holds of every type that a schema is lowered to
(`LoweringInvariant.lower`) and of every type in the declaration of a schema, except for the alias
of a reference that names no component (`LoweringInvariant.declareWithin`).

The steps of the lowering take the lowering of nested schemas as `sub`; what is known of it comes in
as a hypothesis, and the induction on the levels of nesting is `LoweringInvariant.lowerWithin`
alone. The induction on the references that are followed is `LoweringInvariant.declareWithin`.
-/

namespace ClientGen

/-- The types in a declaration: those of the properties and values of an interface, and what an
alias stands for. -/
def Declaration.types : Declaration → List TypeExpr
  | interface i => i.properties.map (·.type) ++ (i.index.map (·.value)).toList
  | typeAlias a => [a.type]
  | enumeration _ => []

namespace Schema

open Report (Yields yields_bind)
open TypeExpr

theorem eachOf_yields {α β : Type} {P : β → Prop} {f : α → Lowering β} (h : ∀ a, Yields P (f a))
    (as : List α) : Yields (fun bs => ∀ b ∈ bs, P b) (eachOf f as) := by
  intro bs ended b mem
  obtain ⟨a, -, value⟩ := (mem_of_eachOf ended).1 mem
  exact h a b value

/-- A property of types that lowering cannot leave: it holds of the types that need no others, of
the names of components, and of whatever is put together from types of which it holds. -/
structure LoweringInvariant (scope : Scope) (P : TypeExpr → Prop) : Prop where
  primitive : ∀ p, P (.primitive p)
  literal : ∀ s, P (.literal s)
  component : ∀ name, (component? scope.components name).isSome → P (.named (Name.typeName name))
  array : ∀ t, P t → P (.array t)
  tuple : ∀ ts, (∀ t ∈ ts, P t) → P (.tuple ts)
  object : ∀ ms : List (Member TypeExpr), (∀ m ∈ ms, P m.type) → P (.object ms)
  index : ∀ key t, P t → P (.index key t)
  union : ∀ ts, (∀ t ∈ ts, P t) → P (.unionOf ts)
  inter : ∀ ts, (∀ t ∈ ts, P t) → P (.interOf ts)

namespace LoweringInvariant

variable {scope : Scope} {P : TypeExpr → Prop} (h : LoweringInvariant scope P)

include h

/-! ### The type of a schema -/

theorem reference {ref name : String}
    (found : ((componentOf? ref).filter fun name =>
      (component? scope.components name).isSome) = some name) : P (.named (Name.typeName name)) :=
  h.component name (Option.filter_eq_some_iff.1 found).2

theorem lowerReference (ref : String) : Yields P (lowerReference scope ref) := by
  unfold Schema.lowerReference
  split
  · next name found => exact .pure (h.reference found)
  · exact yields_bind fun _ => .pure (h.primitive _)

theorem lowerLiteral (v : Value) : Yields P (lowerLiteral v) := by
  unfold Schema.lowerLiteral
  split
  · exact .pure (h.primitive _)
  · exact yields_bind fun s => .pure (h.literal s)

/-- A type of which the property holds, and which admits `null` besides. -/
theorem orNull {t : TypeExpr} (here : P t) : P (unionOf [t, .null]) := by
  apply h.union
  intro u mem
  rw [List.mem_pair] at mem
  rcases mem with rfl | rfl
  · exact here
  · exact h.primitive _

section Parts

variable {sub : Value → Lowering TypeExpr} (nested : ∀ v, Yields P (sub v))

include nested

omit h in
theorem lowerMembers (required : List Key) (properties : Entries) :
    Yields (fun ms => ∀ m ∈ ms, P m.type) (lowerMembers sub required properties) := by
  apply eachOf_yields
  intro (key, schema)
  exact yields_bind fun name => (nested schema).bind fun t here => .pure here

theorem lowerAdditional (additional : Value) :
    Yields (fun value => ∀ t ∈ value, P t) (lowerAdditional sub additional) := by
  have any : ∀ t ∈ some TypeExpr.any, P t := fun t mem => Option.some.inj mem ▸ h.primitive _
  unfold Schema.lowerAdditional
  split
  · exact .pure any
  · exact .pure any
  · exact (nested _).bind fun t here => .pure fun u mem => Option.some.inj mem ▸ here
  · exact .pure nofun

theorem lowerObject (es : Entries) : Yields P (lowerObject sub es) := by
  refine yields_bind fun required => yields_bind fun properties => ?_
  refine (lowerMembers nested required properties).bind fun members object => ?_
  refine (h.lowerAdditional nested _).bind fun additional value => ?_
  split
  · apply Yields.pure
    apply h.inter
    intro t mem
    rw [List.mem_pair] at mem
    rcases mem with rfl | rfl
    · exact h.object _ object
    · exact h.index _ _ (value _ rfl)
  · exact .pure (h.object _ object)
  · exact .pure (h.index _ _ (value _ rfl))
  · split
    · exact .pure (h.object _ nofun)
    · exact .pure (h.primitive _)

theorem lowerArray (es : Entries) : Yields P (lowerArray sub es) := by
  unfold Schema.lowerArray
  split
  · exact (eachOf_yields nested _).bind fun ts here => .pure (h.tuple _ here)
  · split
    · exact .pure (h.array _ (h.primitive _))
    · exact .pure (h.array _ (h.primitive _))
    · exact (nested _).bind fun t here => .pure (h.array _ here)

theorem lowerSingle (es : Entries) (type : String) : Yields P (lowerSingle sub es type) := by
  unfold Schema.lowerSingle
  split
  · next t primitive =>
    unfold primitiveOf? at primitive
    split at primitive <;> cases primitive <;> exact .pure (h.primitive _)
  · split
    · exact h.lowerArray nested es
    · split
      · exact h.lowerObject nested es
      · exact yields_bind fun _ => .pure (h.primitive _)

theorem lowerKeyword (es : Entries) (keyword : String) :
    Yields (fun ts => ∀ t ∈ ts, P t) (lowerKeyword sub es keyword) := by
  unfold Schema.lowerKeyword
  split
  · refine (eachOf_yields nested _).bind fun ts here => .pure ?_
    rw [List.forall_mem_singleton]
    split
    · exact h.inter _ here
    · exact h.union _ here
  · exact .pure (List.forall_mem_nil _)

theorem ownPart (es : Entries) : Yields (fun ts => ∀ t ∈ ts, P t) (ownPart sub es) := by
  unfold Schema.ownPart
  split
  · exact (h.lowerObject nested es).map fun t here => List.forall_mem_singleton.2 here
  · exact .pure nofun

theorem combined (es : Entries) : Yields P (combined sub es) := by
  refine (eachOf_yields (h.lowerKeyword nested es) _).bind fun parts listed => ?_
  refine (h.ownPart nested es).bind fun own here => .pure ?_
  have all : ∀ t ∈ parts.flatten ++ own, P t := by
    intro t mem
    rcases List.mem_append.1 mem with part | mem
    · obtain ⟨ts, part, mem⟩ := List.mem_flatten.1 part
      exact listed ts part t mem
    · exact here t mem
  split
  · exact h.primitive _
  · exact h.inter _ all

theorem lowerComposition (es : Entries) : Yields P (lowerComposition sub es) := by
  rw [lowerComposition_eq]
  refine (h.combined nested es).bind fun t here => yields_bind fun types => .pure ?_
  split
  · exact h.orNull here
  · exact here

theorem lowerEntries (es : Entries) : Yields P (lowerEntries sub scope es) := by
  unfold Schema.lowerEntries
  split
  · exact h.lowerReference _
  · split
    · exact h.lowerLiteral _
    · split
      · exact (eachOf_yields h.lowerLiteral _).bind fun ts here => .pure (h.union _ here)
      · split
        · exact h.lowerComposition nested es
        · refine yields_bind fun types => ?_
          split
          · exact .pure (h.primitive _)
          · refine (eachOf_yields (h.lowerSingle nested es) _).bind fun ts here => ?_
            exact .pure (h.union _ here)

end Parts

theorem fallback (es : Entries) : P (fallback scope es) := by
  unfold Schema.fallback
  split
  · split
    · next name found => exact h.reference found
    · exact h.primitive _
  · exact h.primitive _

/-- The property holds of the type of a schema, however many levels of nesting are left. -/
theorem lowerWithin (budget : Nat) (v : Value) : Yields P (lowerWithin scope budget v) := by
  induction budget generalizing v with
  | zero =>
    cases v with
    | map es =>
      rw [Schema.lowerWithin]
      exact yields_bind fun _ => .pure (h.fallback es)
    | bool b => cases b <;> exact .pure (h.primitive _)
    | _ => exact .pure (h.primitive _)
  | succ budget ih =>
    cases v with
    | map es =>
      rw [Schema.lowerWithin]
      refine (h.lowerEntries ih es).bind fun t here => .pure ?_
      split
      · exact h.orNull here
      · exact here
    | bool b => cases b <;> exact .pure (h.primitive _)
    | _ => exact .pure (h.primitive _)

theorem lower (v : Value) : Yields P (lower scope v) := h.lowerWithin scope.budget v

/-! ### The declaration of a schema -/

theorem interfaceProperties (required : List Key) (properties : Entries) :
    Yields (fun ps => ∀ p ∈ ps, P p.type) (interfaceProperties scope required properties) := by
  apply eachOf_yields
  intro (key, schema)
  exact yields_bind fun name => (h.lower schema).bind fun t here => .pure here

theorem interfaceIndex {properties : List Property} (listed : ∀ p ∈ properties, P p.type)
    (additional : Value) :
    Yields (fun index => ∀ i ∈ index, P i.value) (interfaceIndex scope properties additional) := by
  unfold Schema.interfaceIndex
  split
  · exact .pure fun i mem => Option.some.inj mem ▸ h.primitive _
  · exact .pure fun i mem => Option.some.inj mem ▸ h.primitive _
  · refine (h.lower _).bind fun value here => ?_
    split
    · exact .pure fun i mem => Option.some.inj mem ▸ here
    · refine .pure fun i mem => Option.some.inj mem ▸ h.union _ fun t mem => ?_
      rcases List.mem_append.1 mem with explicit | missing
      · rcases List.mem_cons.1 explicit with rfl | mem
        · exact here
        · obtain ⟨p, member, rfl⟩ := List.mem_map.1 mem
          exact listed p member
      · split at missing
        · rw [List.mem_singleton.1 missing]
          exact h.primitive _
        · exact absurd missing List.not_mem_nil
  · exact .pure nofun

theorem declareInterface (typeName : String) (es : Entries) :
    Yields (fun i => ∀ t ∈ (Declaration.interface i).types, P t)
      (declareInterface scope typeName es) := by
  refine yields_bind fun required => yields_bind fun entries => ?_
  refine (h.interfaceProperties required entries).bind fun properties listed => ?_
  refine (h.interfaceIndex listed _).bind fun index here => .pure ?_
  intro t mem
  rcases List.mem_append.1 mem with property | value
  · obtain ⟨p, member, rfl⟩ := List.mem_map.1 property
    exact listed p member
  · obtain ⟨i, present, rfl⟩ := Option.map_eq_some_iff.1 (Option.mem_toList.1 value)
    exact here i present

theorem declareOwn (typeName : String) (es : Entries) :
    Yields (fun d => ∀ t ∈ d.types, P t) (declareOwn scope typeName es) := by
  unfold Schema.declareOwn
  split
  · exact yields_bind fun variants => .pure nofun
  · refine yields_bind fun isInterface => ?_
    split
    · exact (h.declareInterface typeName es).bind fun i here => .pure here
    · exact (h.lower _).bind fun t here => .pure (List.forall_mem_singleton.2 here)

/-- The alias that closes a circle of references has the property if the type that the circle is
closed with has it. -/
theorem circularAlias (typeName : String) {closing : String} (here : P (.named closing)) :
    P (circularAlias typeName closing).type := by
  unfold Schema.circularAlias
  dsimp only
  split
  · exact h.primitive _
  · exact here

omit h in
theorem declareUnresolved (typeName ref : String) :
    Yields (fun d => d = .typeAlias (unresolvedAlias typeName ref))
      (declareUnresolved typeName ref) :=
  yields_bind fun _ => .pure rfl

end LoweringInvariant

theorem displayName_of_componentOf? {ref name : String} (found : componentOf? ref = some name) :
    displayName ref = name := by
  rw [displayName, found]
  dsimp only
  split
  · next empty => exact (String.isEmpty_iff.1 empty).symm
  · rfl

/-- Whether a property holds of all types in a declaration, if this is not the alias of a reference
that names no component. -/
def AllUnlessUnresolved (P : TypeExpr → Prop) (typeName : String) (d : Declaration) : Prop :=
  (∀ t ∈ d.types, P t) ∨ ∃ ref, d = .typeAlias (unresolvedAlias typeName ref)

namespace LoweringInvariant

variable {scope : Scope} {P : TypeExpr → Prop} (h : LoweringInvariant scope P)

include h

/-- One link of a chain of references. The property holds of the names of what is being resolved and
of the type that the chain began with; so it does after the link. -/
theorem declareStep (typeName : String)
    {follow : Option (Stack → Option String → Value → Lowering Declaration)}
    (followed : ∀ next ∈ follow, ∀ stack hop v,
      (∀ name ∈ stack, P (.named (Name.typeName name))) → (∀ first ∈ hop, P (.named first)) →
        Yields (AllUnlessUnresolved P typeName) (next stack hop v))
    {stack : Stack} (resolving : ∀ name ∈ stack, P (.named (Name.typeName name)))
    {firstHop : Option String} (began : ∀ first ∈ firstHop, P (.named first)) (v : Value) :
    Yields (AllUnlessUnresolved P typeName) (declareStep scope typeName follow stack firstHop v) := by
  have unresolved : ∀ ref, Yields (AllUnlessUnresolved P typeName)
      (Schema.declareUnresolved typeName ref) := by
    intro ref d ended
    exact .inr ⟨ref, declareUnresolved typeName ref d ended⟩
  cases v with
  | map es =>
    refine yields_bind fun _ => ?_
    split
    · intro d ended
      exact .inl (h.declareOwn typeName es d ended)
    · refine yields_bind fun ref => ?_
      dsimp only
      split
      · exact unresolved ref
      · next target found =>
        have hop (here : P (.named (Name.typeName target))) :
            P (.named (firstHop.getD (Name.typeName (displayName ref)))) := by
          cases firstHop with
          | none => rwa [Option.getD_none, displayName_of_componentOf? found]
          | some first => exact began first rfl
        split
        · next circular =>
          have here := resolving target (List.contains_iff_mem.1 circular)
          refine yields_bind fun _ => .pure (.inl ?_)
          exact List.forall_mem_singleton.2 (h.circularAlias typeName (hop here))
        · split
          · next next schema _ known =>
            have here := h.component target (Option.isSome_of_eq_some known)
            refine followed _ rfl _ _ _ ?_ fun first mem => Option.some.inj mem ▸ hop here
            intro name mem
            unfold pushName at mem
            split at mem
            · exact resolving name mem
            · rcases List.mem_append.1 mem with mem | mem
              · exact resolving name mem
              · rwa [List.mem_singleton.1 mem]
          · exact unresolved ref
  | _ => exact (h.lower _).bind fun t here => .pure (.inl (List.forall_mem_singleton.2 here))

/-- The property holds of the types in the declaration of a schema, however many references may be
followed. -/
theorem declareWithin (typeName : String) (links : Nat) {stack : Stack}
    (resolving : ∀ name ∈ stack, P (.named (Name.typeName name))) {firstHop : Option String}
    (began : ∀ first ∈ firstHop, P (.named first)) (v : Value) :
    Yields (AllUnlessUnresolved P typeName)
      (declareWithin scope typeName links stack firstHop v) := by
  induction links generalizing stack firstHop v with
  | zero =>
    refine h.declareStep typeName (fun next mem => ?_) resolving began v
    exact absurd mem (Option.not_mem_none next)
  | succ links ih =>
    refine h.declareStep typeName (fun next mem => ?_) resolving began v
    rw [← Option.some.inj mem]
    exact fun stack hop v resolving began => ih resolving began v

end LoweringInvariant

end Schema

end ClientGen
