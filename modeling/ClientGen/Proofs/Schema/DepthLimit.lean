import ClientGen.Proofs.Schema.Agreement

/-!
# The limit of nesting

The mapper counts how deep the schema at hand is nested and looks into no schema that is nested
deeper than a limit.

* **A limit that is not hit makes no difference** (`agrees_map`, `agrees_declare`): where a mapper
  gives no warning that schemas are nested too deep, one with a higher limit does the same, with the
  same notes. Both enter a level together (`agrees_step`), up to the first one that only the higher
  limit admits, and there the first mapper gives that warning.
* **The counter stays within the nesting of the schema** (`agrees_withinVia_watch`): whatever is
  done where the counter is seen above its starting value and the nesting of the schema together, it
  is never done. For this the mapper is run with another way down to nested schemas than
  `Mapping.descend` (`mapVia`), which looks at the counter just after it was raised (`watch`).
-/

namespace ClientGen.Schema

/-! ### How deep schemas are nested -/

mutual

/-- How deep schemas are nested in a schema, itself included, as far as lowering looks into them. -/
def nesting : Value → Nat
  | .map es => nestingUnder es + 1
  | _ => 0

/-- How deep schemas are nested in the items of a list. -/
def nestingInItems : List Value → Nat
  | [] => 0
  | v :: rest => max (nesting v) (nestingInItems rest)

/-- How deep schemas are nested in the values of a mapping. -/
def nestingInMembers : List (Key × Value) → Nat
  | [] => 0
  | (_, v) :: rest => max (nesting v) (nestingInMembers rest)

/-- How deep schemas are nested under the keywords of a schema. -/
def nestingUnder : List (Key × Value) → Nat
  | [] => 0
  | (k, v) :: rest =>
    max (match roleOf k, v with
      | .schema, v => nesting v
      | .sequence, .list items => nestingInItems items
      | .alternatives, .list items => nestingInItems items
      | .named, .map ps => nestingInMembers ps
      | _, _ => 0) (nestingUnder rest)

end

/-- How deep schemas are nested in the value of a keyword. -/
def nestingAt (role : Role) (v : Value) : Nat :=
  match role, v with
  | .schema, v => nesting v
  | .sequence, .list items => nestingInItems items
  | .alternatives, .list items => nestingInItems items
  | .named, .map ps => nestingInMembers ps
  | _, _ => 0

theorem nestingUnder_cons (k : Key) (v : Value) (rest : Entries) :
    nestingUnder ((k, v) :: rest) = max (nestingAt (roleOf k) v) (nestingUnder rest) := by
  rw [nestingUnder.eq_def]
  rfl

theorem nesting_le_nestingInItems {v : Value} {items : List Value} (mem : v ∈ items) :
    nesting v ≤ nestingInItems items := by
  induction items with
  | nil => exact absurd mem List.not_mem_nil
  | cons w rest ih =>
    rw [nestingInItems]
    rcases List.mem_cons.1 mem with rfl | mem
    · exact Nat.le_max_left _ _
    · exact Nat.le_trans (ih mem) (Nat.le_max_right _ _)

theorem nestingInMembers_eq (ps : Entries) :
    nestingInMembers ps = nestingInItems (ps.map (·.2)) := by
  induction ps with
  | nil => rfl
  | cons p rest ih => rw [nestingInMembers, ih, List.map_cons, nestingInItems]

theorem nestingAt_get_le (es : Entries) (name : String) :
    nestingAt (roleOf (.str name)) (es.get name) ≤ nestingUnder es := by
  induction es with
  | nil =>
    rw [Entries.get, Entries.find?, Option.getD_none]
    cases roleOf (.str name) <;> simp [nestingAt, nesting]
  | cons e rest ih =>
    obtain ⟨k, v⟩ := e
    rw [nestingUnder_cons, Entries.get, Entries.find?]
    split
    · next key =>
      rw [key]
      exact Nat.le_max_left _ _
    · exact Nat.le_trans ih (Nat.le_max_right _ _)

theorem nesting_le_nestingUnder {es : Entries} {v : Value} (under : Mapper.IsUnder es v) :
    nesting v ≤ nestingUnder es := by
  cases under with
  | @schema name role =>
    have le := nestingAt_get_le es name
    rwa [role] at le
  | @item name _ role mem =>
    have le := nestingAt_get_le es name
    cases listed : es.get name with
    | list items =>
      rw [listed] at mem le
      refine Nat.le_trans (nesting_le_nestingInItems mem) ?_
      rcases role with role | role <;> rwa [role] at le
    | _ =>
      rw [listed] at mem
      exact absurd mem List.not_mem_nil
  | @named name ps p role members mem =>
    have le := nestingAt_get_le es name
    rw [role, members, nestingAt, nestingInMembers_eq] at le
    exact Nat.le_trans (nesting_le_nestingInItems (List.mem_map_of_mem mem)) le

/-! ### The warning -/

/-- Whether a note is the warning that schemas are nested too deep. -/
def IsDepthWarning (n : Note) : Prop := ∃ limit, n = .warning (.depthExceeded limit)

/-- Whether no schema was nested too deep. -/
def WithinLimit {α : Type} (r : Lowering α) : Prop :=
  ∀ limit, Note.warning (.depthExceeded limit) ∉ r.notes

theorem WithinLimit.silent {α : Type} {r : Lowering α} (h : WithinLimit r) :
    Mapping.Silent IsDepthWarning r := by
  rintro n mem ⟨limit, rfl⟩
  exact h limit mem

theorem Context.depth_deeper (c : Context) : c.deeper.depth = c.depth + 1 := rfl

namespace Mapper

open Mapping (Agrees Runs report context descend)

/-! ### Higher limits -/

section Limits

variable {components : Components} {limit limit' : Int} (le : limit ≤ limit')

include le

/-- One level down, two mappers agree if the first one has reached its limit, and else if they agree
on what is nested in the schema. -/
theorem agrees_step {sub sub' : Value → Mapping TypeExpr} {c : Context} {es : Entries}
    (h : c.depth + 1 ≤ limit → ∀ v, IsUnder es v → Agrees IsDepthWarning c.deeper (sub v) (sub' v)) :
    Agrees IsDepthWarning c (step sub ⟨components, limit⟩ (.map es))
      (step sub' ⟨components, limit'⟩ (.map es)) := by
  rw [step, step]
  apply Agrees.descend
  by_cases inside : c.depth + 1 ≤ limit
  · rw [decide_eq_true inside, decide_eq_true (Int.le_trans inside le)]
    exact (agrees_entries (h inside) components limit limit').bind fun _ => .pure _
  · -- Here the first mapper gives the warning, so nothing is asked of the second one.
    rw [decide_eq_false inside]
    refine .of_runs ((Runs.report _).bind fun _ => .pure _) fun silent => ?_
    exact absurd ⟨limit, rfl⟩ (silent.of_bind.1 _ (List.mem_singleton_self _))

/-- Where a level is left within the first limit, one is left within the second, and so on down. -/
theorem agrees_within {levels levels' : Nat} {c : Context}
    (left : levels = levelsLeft ⟨components, limit⟩ c)
    (left' : levels' = levelsLeft ⟨components, limit'⟩ c) (v : Value) :
    Agrees IsDepthWarning c (within ⟨components, limit⟩ levels v)
      (within ⟨components, limit'⟩ levels' v) := by
  unfold levelsLeft at left left'
  dsimp only at left left'
  induction levels generalizing levels' c v with
  | zero =>
    obtain ⟨sub, run⟩ : ∃ sub, within ⟨components, limit'⟩ levels' =
        step sub ⟨components, limit'⟩ := by
      cases levels' <;> exact ⟨_, rfl⟩
    rw [run, within]
    cases v with
    | bool b => cases b <;> exact .pure _
    | map es => exact agrees_step le fun inside => by omega
    | _ => exact .pure _
  | succ levels ih =>
    cases levels' with
    | zero => omega
    | succ levels' =>
      cases v with
      | bool b => cases b <;> exact .pure _
      | map es =>
        have deeper := c.depth_deeper
        exact agrees_step le fun _ v _ => ih (by omega) (by omega) v
      | _ => exact .pure _

/-- The types that a mapper gives, up to the first warning that schemas are nested too deep. -/
theorem agrees_map (c : Context) (schema : Value) :
    Agrees IsDepthWarning c (map ⟨components, limit⟩ schema) (map ⟨components, limit'⟩ schema) :=
  .context_bind (agrees_within le rfl rfl schema)

variable {c : Context} (typeName : String)

theorem agrees_properties (required : List Key) (ps : Entries) :
    Agrees IsDepthWarning c (properties ⟨components, limit⟩ required ps)
      (properties ⟨components, limit'⟩ required ps) :=
  .each fun p _ => (Agrees.report _).bind fun _ => (agrees_map le c p.2).bind fun _ => .pure _

theorem agrees_index (ps : List Property) (v : Value) :
    Agrees IsDepthWarning c (index ⟨components, limit⟩ ps v) (index ⟨components, limit'⟩ ps v) := by
  cases v with
  | bool b => cases b <;> exact .pure _
  | map es =>
    cases es with
    | nil => exact .pure _
    | cons e fs => exact (agrees_map le c _).bind fun _ => .pure _
  | _ => exact .pure _

theorem agrees_interface (es : Entries) :
    Agrees IsDepthWarning c (interface ⟨components, limit⟩ typeName es)
      (interface ⟨components, limit'⟩ typeName es) := by
  refine (Agrees.report _).bind fun required => (Agrees.report _).bind fun entries => ?_
  refine (agrees_properties le required entries).bind fun properties => ?_
  exact (agrees_index le properties _).bind fun index => .pure _

theorem agrees_unreferred (es : Entries) :
    Agrees IsDepthWarning c (unreferred ⟨components, limit⟩ typeName es)
      (unreferred ⟨components, limit'⟩ typeName es) := by
  unfold unreferred
  split
  · exact (Agrees.report _).bind fun _ => .pure _
  · refine (Agrees.report _).bind fun interfaced => ?_
    split
    · exact (agrees_interface le typeName es).bind fun _ => .pure _
    · exact (agrees_map le c _).bind fun _ => .pure _

/-- Whether two steps go on with a component alike, in every context. -/
def GoOnAlike (follow follow' : Option (Option String → Value → Mapping Declaration)) : Prop :=
  Option.Rel (fun next next' => ∀ c hop v, Agrees IsDepthWarning c (next hop v) (next' hop v))
    follow follow'

section Follow

variable {follow follow' : Option (Option String → Value → Mapping Declaration)}
  (alike : GoOnAlike follow follow')

include alike

omit le in
theorem agrees_reference (firstHop : Option String) (ref : String) :
    Agrees IsDepthWarning c (reference ⟨components, limit⟩ typeName follow firstHop ref)
      (reference ⟨components, limit'⟩ typeName follow' firstHop ref) := by
  unfold reference
  cases componentOf? ref with
  | none => exact .report _
  | some target =>
    apply Agrees.context_bind
    dsimp only
    split
    · exact (Agrees.report _).bind fun _ => .pure _
    · cases alike with
      | none => cases component? components target <;> exact .report _
      | some alike =>
        cases component? components target with
        | none => exact .report _
        | some es => exact .resolving (alike (c.push target) _ _)

theorem agrees_declaration (firstHop : Option String) (v : Value) :
    Agrees IsDepthWarning c (declaration ⟨components, limit⟩ typeName follow firstHop v)
      (declaration ⟨components, limit'⟩ typeName follow' firstHop v) := by
  cases v with
  | map es =>
    refine (Agrees.report _).bind fun _ => ?_
    cases Entries.find? "$ref" es with
    | none => exact agrees_unreferred le typeName es
    | some value =>
      exact (Agrees.report _).bind fun ref => agrees_reference typeName alike firstHop ref
  | _ => exact (agrees_map le c _).bind fun _ => .pure _

end Follow

theorem agrees_following (links : Nat) (firstHop : Option String) (v : Value) :
    Agrees IsDepthWarning c (following ⟨components, limit⟩ typeName links firstHop v)
      (following ⟨components, limit'⟩ typeName links firstHop v) := by
  induction links generalizing c firstHop v with
  | zero => exact agrees_declaration le typeName .none firstHop v
  | succ links ih =>
    exact agrees_declaration le typeName (.some fun c hop v => ih hop v) firstHop v

/-- The declarations that a mapper gives, up to the first warning that schemas are nested too
deep. -/
theorem agrees_declare (c : Context) (name : String) (schema : Value) :
    Agrees IsDepthWarning c (declare ⟨components, limit⟩ name schema)
      (declare ⟨components, limit'⟩ name schema) :=
  .resolving (agrees_following le (Name.typeName name) _ none schema)

end Limits

/-! ### The counter -/

section Ways

variable (down : (Bool → Mapping TypeExpr) → Mapping TypeExpr)

/-- The step of the mapper, with `down` for the way down to nested schemas. -/
def stepVia (sub : Value → Mapping TypeExpr) (scope : Scope) : Value → Mapping TypeExpr
  | .bool true => pure .any
  | .bool false => pure .never
  | .map es => down fun
    | true => do
      let type ← entries sub scope es
      return if (Entries.get "nullable" es).isTrue then .unionOf [type, .null] else type
    | false => do
      report (warn (.depthExceeded scope.maxDepth))
      return fallback scope es
  | _ => pure .any

/-- The type of a schema with `levels` of nesting left, with `down` for the way down. -/
def withinVia (scope : Scope) : (levels : Nat) → Value → Mapping TypeExpr
  | 0 => stepVia down (fun _ => pure .any) scope
  | levels + 1 => stepVia down (withinVia scope levels) scope

/-- The mapper, with `down` for the way down to nested schemas. -/
def mapVia (scope : Scope) (schema : Value) : Mapping TypeExpr := do
  withinVia down scope (scope.maxDepth - (← context).depth).toNat schema

end Ways

theorem stepVia_descend (sub : Value → Mapping TypeExpr) (scope : Scope) :
    stepVia (descend scope.maxDepth) sub scope = step sub scope := by
  funext v
  cases v with
  | bool b => cases b <;> rfl
  | _ => rfl

/-- The mapper itself goes down by `Mapping.descend`. -/
theorem mapVia_descend (scope : Scope) : mapVia (descend scope.maxDepth) scope = map scope := by
  have levels (n : Nat) : withinVia (descend scope.maxDepth) scope n = within scope n := by
    induction n with
    | zero => exact stepVia_descend _ scope
    | succ n ih => rw [withinVia, ih, stepVia_descend, within]
  funext schema
  simp only [mapVia, levels, map]

/-- Does `alarm` if the counter is above a bound. -/
def raiseAbove (bound : Int) (alarm : Mapping Unit) : Mapping Unit := do
  if bound < (← context).depth then alarm else pure ()

/-- The way down of the mapper, with a look at the counter just after it was raised. -/
def watch (bound : Int) (alarm : Mapping Unit) (limit : Int) (block : Bool → Mapping TypeExpr) :
    Mapping TypeExpr :=
  descend limit fun inside => do
    raiseAbove bound alarm
    block inside

section Watch

variable {noted : Note → Prop} {bound : Int} {alarm : Mapping Unit} {scope : Scope}

theorem runs_raiseAbove {c : Context} (fits : c.depth ≤ bound) :
    Runs (raiseAbove bound alarm) c (pure ()) := by
  apply Runs.context_bind
  rw [if_neg (Int.not_lt.2 fits)]
  exact .pure ()

theorem agrees_stepVia_watch {sub sub' : Value → Mapping TypeExpr} {c : Context} {v : Value}
    (fits : c.depth + nesting v ≤ bound)
    (h : ∀ w, c.deeper.depth + nesting w ≤ bound → Agrees noted c.deeper (sub w) (sub' w)) :
    Agrees noted c (step sub scope v) (stepVia (watch bound alarm scope.maxDepth) sub' scope v) := by
  cases v with
  | bool b => cases b <;> exact .pure _
  | map es =>
    rw [nesting, Int.natCast_add, Int.natCast_one] at fits
    have deeper := c.depth_deeper
    have nested : ∀ w, IsUnder es w → Agrees noted c.deeper (sub w) (sub' w) := by
      intro w under
      have le := nesting_le_nestingUnder under
      exact h w (by omega)
    have quiet : Runs (raiseAbove bound alarm) c.deeper (pure ()) := runs_raiseAbove (by omega)
    rw [step, stepVia, watch]
    apply Agrees.descend
    refine Agrees.after ?_ quiet
    cases decide (c.depth + 1 ≤ scope.maxDepth) with
    | true => exact (agrees_entries nested scope.components _ _).bind fun _ => .pure _
    | false => exact (Agrees.report _).bind fun _ => .pure _
  | _ => exact .pure _

/-- A mapper that watches its counter sees nothing above the nesting of the schema. -/
theorem agrees_withinVia_watch (levels : Nat) {c : Context} {v : Value}
    (fits : c.depth + nesting v ≤ bound) :
    Agrees noted c (within scope levels v)
      (withinVia (watch bound alarm scope.maxDepth) scope levels v) := by
  induction levels generalizing c v with
  | zero => exact agrees_stepVia_watch fits fun _ _ => .pure _
  | succ levels ih => exact agrees_stepVia_watch fits fun _ => ih

end Watch

end Mapper

/-- **The limit of nesting makes no difference until it is hit**: where a mapper gives no warning
that schemas are nested too deep, one with a higher limit gives the same type or declaration, in the
same context with the same notes. **The counter of levels never exceeds** its starting value and the
nesting of the schema together: a mapper that does whatever it likes where it sees the counter above
that (`Mapper.watch`) does what the mapper does. -/
theorem depth_limit_transparent :
    (∀ (components : Components) (limit limit' : Int), limit ≤ limit' → ∀ c : Context,
      (∀ schema, WithinLimit (Mapper.map ⟨components, limit⟩ schema c).1 →
        Mapper.map ⟨components, limit'⟩ schema c = Mapper.map ⟨components, limit⟩ schema c) ∧
      ∀ name schema, WithinLimit (Mapper.declare ⟨components, limit⟩ name schema c).1 →
        Mapper.declare ⟨components, limit'⟩ name schema c =
          Mapper.declare ⟨components, limit⟩ name schema c) ∧
    ∀ (scope : Scope) (alarm : Mapping Unit) (schema : Value) (c : Context),
      Mapper.mapVia (Mapper.watch (c.depth + nesting schema) alarm scope.maxDepth) scope schema c =
        Mapper.map scope schema c := by
  refine ⟨fun components limit limit' le c => ⟨fun schema unhit => ?_, fun name schema unhit => ?_⟩,
    fun scope alarm schema c => ?_⟩
  · exact (Mapper.agrees_map le c schema).same unhit.silent
  · exact (Mapper.agrees_declare le c name schema).same unhit.silent
  · have agrees : Mapping.Agrees (fun _ => False) c (Mapper.map scope schema)
        (Mapper.mapVia (Mapper.watch (c.depth + nesting schema) alarm scope.maxDepth) scope
          schema) :=
      .context_bind (Mapper.agrees_withinVia_watch _ (Int.le_refl _))
    exact agrees.same fun _ _ => id

/-- The schema of an array of strings, which has two levels. -/
def stringArray : Value :=
  .map [(.str "type", .str "array"), (.str "items", .map [(.str "type", .str "string")])]

theorem depth_limit_transparent_of_array :
    nesting stringArray = 2 ∧ (2 : Int) ≤ 64 ∧
      WithinLimit (Mapper.map ⟨[], 2⟩ stringArray {}).1 ∧
      Mapper.map ⟨[], 64⟩ stringArray {} = (pure (.array .string), {}) ∧
      WithinLimit (Mapper.declare ⟨[], 2⟩ "Tags" stringArray {}).1 ∧
      Mapper.declare ⟨[], 64⟩ "Tags" stringArray {} =
        Mapper.declare ⟨[], 2⟩ "Tags" stringArray {} := by
  obtain ⟨types, declarations⟩ := depth_limit_transparent.1 [] 2 64 (by decide) {}
  have none : (Mapper.map ⟨[], 2⟩ stringArray {}).1.notes = [] := rfl
  have none' : (Mapper.declare ⟨[], 2⟩ "Tags" stringArray {}).1.notes = [] := rfl
  have type : WithinLimit (Mapper.map ⟨[], 2⟩ stringArray {}).1 := by
    intro limit
    rw [none]
    exact List.not_mem_nil
  have declaration : WithinLimit (Mapper.declare ⟨[], 2⟩ "Tags" stringArray {}).1 := by
    intro limit
    rw [none']
    exact List.not_mem_nil
  exact ⟨rfl, by decide, type, (types _ type).trans rfl, declaration, declarations _ _ declaration⟩

/-- A bound that is one level lower is exceeded. -/
example : (Mapper.mapVia (Mapper.watch 1 (Mapping.report (warn (.unknownType "alarm"))) 64) ⟨[], 64⟩
    stringArray {}).1.notes = [.warning (.unknownType "alarm")] := rfl

end ClientGen.Schema
