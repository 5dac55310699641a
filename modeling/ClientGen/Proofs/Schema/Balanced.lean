import ClientGen.Proofs.Schema.Following
import ClientGen.Proofs.Schema.Parts
import ClientGen.Schema.Session

/-!
# Contexts that are put back

A step of the mapper is balanced if it leaves the context as it was, however it ends (`Balanced`).
Blocks for a name and blocks one level down are, where the step in them is, since they take back
what they changed and nothing else: a name that was being resolved before stays so.

What a balanced step gives depends on the context, but is worked out without one: `Runs x c r` says
that the step `x` does in the context `c` what `r` does. So the mapper gives the types of
`lowerWithin` (`runs_within`), with as many levels as the context leaves. Where no schema stands in
another one it gives the types of `lower` (`map_eq`) and the declarations of `declare`
(`declare_eq`).
-/

namespace ClientGen.Schema

namespace Mapping

variable {α β : Type} {c : Context} {x : Mapping α} {r : Lowering α} {f : α → Mapping β}
  {g : α → Lowering β}

/-- Whether a step does in a context what `r` does, and leaves the context as it was. -/
def Runs (x : Mapping α) (c : Context) (r : Lowering α) : Prop := x c = (r, c)

/-- Whether a step leaves every context as it was, whether it ends in a value or in a failure. -/
def Balanced (x : Mapping α) : Prop := ∀ c, (x c).2 = c

/-! ### Steps that are put together -/

theorem Runs.pure (a : α) : Runs (pure a) c (pure a) := rfl

theorem Runs.report (r : Lowering α) : Runs (report r) c r := rfl

/-- A step that depends on the context is the one for the context at hand. -/
theorem Runs.context_bind {f : Context → Mapping β} {r : Lowering β} (h : Runs (f c) c r) :
    Runs (context >>= f) c r := h

theorem Runs.ensuring (h : Runs x c r) (f : Context → Context) : ensuring x f c = (r, f c) :=
  congrArg (fun ended => (ended.1, f ended.2)) h

/-- The steps that follow matter for the value only that the first one ends in. -/
theorem Runs.bind_of_ok (h : Runs x c r) (next : ∀ a, r.result = .ok a → Runs (f a) c (g a)) :
    Runs (x >>= f) c (r >>= g) := by
  change andThen x f c = (Report.andThen r g, c)
  rw [andThen, h]
  obtain ⟨notes, result⟩ := r
  cases result with
  | error e => rfl
  | ok a =>
    dsimp only
    rw [next a rfl]
    rfl

theorem Runs.bind (h : Runs x c r) (next : ∀ a, Runs (f a) c (g a)) :
    Runs (x >>= f) c (r >>= g) :=
  h.bind_of_ok fun a _ => next a

theorem Runs.each {f : α → Mapping β} {g : α → Lowering β} (step : ∀ a, Runs (f a) c (g a))
    (as : List α) : Runs (each f as) c (eachOf g as) := by
  induction as with
  | nil => exact .pure []
  | cons a rest ih => exact (step a).bind fun b => ih.bind fun bs => .pure (b :: bs)

/-! ### Blocks -/

/-- A context from which what was pushed on it is popped again. -/
theorem pop_push {name : String} (new : c.isResolving name = false) :
    (c.push name).pop name = c := by
  have absent : name ∉ c.stack := by simpa [Context.isResolving] using new
  have others : c.stack.filter (· != name) = c.stack :=
    List.filter_eq_self.2 fun other mem => bne_iff_ne.2 fun same => absent (same ▸ mem)
  rw [Context.pop, Context.push, pushName_of_not_mem absent]
  simp [others]

theorem push_of_isResolving {name : String} (seen : c.isResolving name = true) :
    c.push name = c := by
  have seen : c.stack.contains name = true := seen
  rw [Context.push, pushName, if_pos seen]

/-- A block for a name is run where the name is being resolved. -/
theorem Runs.resolving {name : String} (h : Runs x (c.push name) r) :
    Runs (resolving name x) c r := by
  apply Runs.context_bind
  split
  · next seen => rwa [push_of_isResolving seen] at h
  · next new =>
    have ended := h.ensuring (·.pop name)
    rw [pop_push (Bool.eq_false_iff.2 new)] at ended
    exact ended

theorem shallower_deeper (c : Context) : c.deeper.shallower = c := by
  simp [Context.shallower, Context.deeper]

/-- A block one level down is run there. -/
theorem Runs.descend {limit : Int} {block : Bool → Mapping α}
    (h : Runs (block (decide (c.depth + 1 ≤ limit))) c.deeper r) :
    Runs (descend limit block) c r := by
  have inside : Runs (Mapping.context >>= fun c => block (decide (c.depth ≤ limit))) c.deeper r :=
    .context_bind h
  have ended := inside.ensuring Context.shallower
  rw [shallower_deeper] at ended
  exact ended

/-! ### Steps at the top level -/

/-- Whether a step leaves a context as it was, and does what `r` does if the context is not that of
a schema in another one. -/
def RunsOnTop (x : Mapping α) (c : Context) (r : Lowering α) : Prop :=
  (x c).2 = c ∧ (c.depth = 0 → (x c).1 = r)

theorem RunsOnTop.runs (h : RunsOnTop x c r) : Runs x c (x c).1 := Prod.ext rfl h.1

theorem Runs.onTop {r' : Lowering α} (h : Runs x c r') (same : c.depth = 0 → r' = r) :
    RunsOnTop x c r :=
  ⟨congrArg Prod.snd h, fun top => (congrArg Prod.fst h).trans (same top)⟩

theorem RunsOnTop.pure (a : α) : RunsOnTop (pure a) c (pure a) := (Runs.pure a).onTop fun _ => rfl

theorem RunsOnTop.report (r : Lowering α) : RunsOnTop (report r) c r :=
  (Runs.report r).onTop fun _ => rfl

theorem RunsOnTop.context_bind {f : Context → Mapping β} {r : Lowering β}
    (h : RunsOnTop (f c) c r) : RunsOnTop (context >>= f) c r := h

theorem RunsOnTop.bind (h : RunsOnTop x c r) (next : ∀ a, RunsOnTop (f a) c (g a)) :
    RunsOnTop (x >>= f) c (r >>= g) := by
  refine (h.runs.bind fun a => (next a).runs).onTop fun top => ?_
  rw [h.2 top]
  congr 1
  funext a
  exact (next a).2 top

theorem RunsOnTop.each {f : α → Mapping β} {g : α → Lowering β}
    (step : ∀ a, RunsOnTop (f a) c (g a)) (as : List α) :
    RunsOnTop (each f as) c (eachOf g as) := by
  refine (Runs.each (fun a => (step a).runs) as).onTop fun top => ?_
  congr 1
  funext a
  exact (step a).2 top

theorem RunsOnTop.resolving {name : String} (h : RunsOnTop x (c.push name) r) :
    RunsOnTop (resolving name x) c r :=
  (Runs.resolving h.runs).onTop h.2

end Mapping

namespace Mapper

open Mapping (Runs RunsOnTop Balanced)

/-! ### Types -/

section Types

variable {sub : Value → Mapping TypeExpr} {sub' : Value → Lowering TypeExpr} {c : Context}
  (h : ∀ v, Runs (sub v) c (sub' v))

include h

theorem runs_members (required : List Key) (ps : Entries) :
    Runs (members sub required ps) c (lowerMembers sub' required ps) :=
  .each (fun (_, schema) => (Runs.report _).bind fun _ => (h schema).bind fun _ => .pure _) ps

theorem runs_additional (v : Value) : Runs (additional sub v) c (lowerAdditional sub' v) := by
  cases v with
  | bool b => cases b <;> exact .pure _
  | map es =>
    cases es with
    | nil => exact .pure _
    | cons e fs => exact (h _).bind fun _ => .pure _
  | _ => exact .pure _

theorem runs_object (es : Entries) : Runs (object sub es) c (lowerObject sub' es) := by
  refine (Runs.report _).bind fun required => (Runs.report _).bind fun properties => ?_
  refine (runs_members h required properties).bind fun members => ?_
  refine (runs_additional h _).bind fun value => ?_
  cases members with
  | cons m ms => cases value <;> exact .pure _
  | nil =>
    cases value with
    | some value => exact .pure _
    | none =>
      generalize es.get "additionalProperties" = allowed
      cases allowed with
      | bool b => cases b <;> exact .pure _
      | _ => exact .pure _

theorem runs_array (es : Entries) : Runs (array sub es) c (lowerArray sub' es) := by
  unfold array lowerArray
  generalize es.get "prefixItems" = first
  generalize es.get "items" = v
  cases first
  case' list vs => cases vs
  case list.cons a rest => exact (Runs.each h _).bind fun _ => .pure _
  -- No first items are listed, so all items are of one schema.
  all_goals
    cases v with
    | null => exact .pure _
    | bool b =>
      cases b with
      | false => exact .pure _
      | true => exact (h _).bind fun _ => .pure _
    | _ => exact (h _).bind fun _ => .pure _

theorem runs_single (es : Entries) (type : String) :
    Runs (single sub es type) c (lowerSingle sub' es type) := by
  unfold single lowerSingle
  cases primitiveOf? type with
  | some t => exact .pure t
  | none =>
    dsimp only
    split
    · exact runs_array h es
    · split
      · exact runs_object h es
      · exact (Runs.report _).bind fun _ => .pure _

theorem runs_keyword (es : Entries) (name : String) :
    Runs (keyword sub es name) c (lowerKeyword sub' es name) := by
  unfold keyword lowerKeyword
  cases es.get name with
  | list vs =>
    cases vs with
    | nil => exact .pure _
    | cons first rest => exact (Runs.each h _).bind fun _ => .pure _
  | _ => exact .pure _

theorem runs_own (es : Entries) : Runs (own sub es) c (ownPart sub' es) := by
  unfold own ownPart
  split
  · rw [map_eq_pure_bind]
    exact (runs_object h es).bind fun _ => .pure _
  · exact .pure _

theorem runs_composition (es : Entries) :
    Runs (composition sub es) c (lowerComposition sub' es) := by
  rw [lowerComposition_eq, combined, bind_assoc]
  refine (Runs.each (runs_keyword h es) _).bind fun parts => ?_
  rw [bind_assoc]
  refine (runs_own h es).bind fun own => ?_
  rw [pure_bind]
  exact (Runs.report _).bind fun types => .pure _

theorem runs_unlisted (es : Entries) : Runs (unlisted sub es) c (lowerOpen sub' es) := by
  unfold unlisted lowerOpen
  split
  · exact runs_composition h es
  · refine (Runs.report _).bind fun types => ?_
    cases types with
    | nil => exact .pure _
    | cons type rest => exact (Runs.each (runs_single h es) _).bind fun _ => .pure _

omit h in
theorem lowerEntries_eq_listed? (scope : Scope) (es : Entries) : lowerEntries sub' scope es =
    match listed? scope es with
    | some type => type
    | none => lowerOpen sub' es := by
  rw [lowerEntries_eq, lowerUnreferred_eq, listed?]
  cases es.get "$ref" with
  | str ref => rfl
  | _ =>
    cases es.find? "const" with
    | some value => rfl
    | none =>
      cases es.get "enum" with
      | list vs => cases vs <;> rfl
      | _ => rfl

theorem runs_entries (scope : Scope) (es : Entries) :
    Runs (entries sub scope es) c (lowerEntries sub' scope es) := by
  rw [lowerEntries_eq_listed?, entries]
  cases listed? scope es with
  | some type => exact .report type
  | none => exact runs_unlisted h es

end Types

/-- The levels of nesting that are left in a context. -/
def levelsLeft (scope : Scope) (c : Context) : Nat := (scope.maxDepth - c.depth).toNat

/-- The mapper gives the type that is lowered with the levels that the context leaves. -/
theorem runs_within (scope : Scope) {levels : Nat} {c : Context}
    (left : levels = levelsLeft scope c) (v : Value) :
    Runs (within scope levels v) c (lowerWithin scope levels v) := by
  induction levels generalizing c v with
  | zero =>
    cases v with
    | bool b => cases b <;> exact .pure _
    | map es =>
      have below : decide (c.depth + 1 ≤ scope.maxDepth) = false := by
        unfold levelsLeft at left
        simp only [decide_eq_false_iff_not]
        omega
      rw [within, step]
      apply Runs.descend
      rw [below]
      exact (Runs.report _).bind fun _ => .pure _
    | _ => exact .pure _
  | succ levels ih =>
    cases v with
    | bool b => cases b <;> exact .pure _
    | map es =>
      unfold levelsLeft at left
      have inside : decide (c.depth + 1 ≤ scope.maxDepth) = true := by
        simp only [decide_eq_true_eq]
        omega
      have deeper : levels = levelsLeft scope c.deeper := by
        simp only [levelsLeft, Context.deeper]
        omega
      rw [within, step]
      apply Runs.descend
      rw [inside]
      exact (runs_entries (fun v => ih deeper v) scope es).bind fun type => .pure _
    | _ => exact .pure _

theorem runs_map (scope : Scope) (c : Context) (schema : Value) :
    Runs (map scope schema) c (lowerWithin scope (levelsLeft scope c) schema) :=
  .context_bind (runs_within scope rfl schema)

/-! ### Declarations -/

section Declarations

variable (scope : Scope) (typeName : String) {c : Context}

theorem runsOnTop_map (schema : Value) : RunsOnTop (map scope schema) c (lower scope schema) := by
  refine (runs_map scope c schema).onTop fun top => ?_
  rw [lower, levelsLeft, top, Int.sub_zero]
  rfl

theorem runsOnTop_properties (required : List Key) (ps : Entries) :
    RunsOnTop (properties scope required ps) c (interfaceProperties scope required ps) :=
  .each (fun (_, schema) => (RunsOnTop.report _).bind fun _ =>
    (runsOnTop_map scope schema).bind fun _ => .pure _) ps

theorem runsOnTop_index (ps : List Property) (v : Value) :
    RunsOnTop (index scope ps v) c (interfaceIndex scope ps v) := by
  cases v with
  | bool b => cases b <;> exact .pure _
  | map es =>
    cases es with
    | nil => exact .pure _
    | cons e fs =>
      refine (runsOnTop_map scope _).bind fun value => ?_
      unfold indexType
      split <;> exact .pure _
  | _ => exact .pure _

theorem runsOnTop_interface (es : Entries) :
    RunsOnTop (interface scope typeName es) c (declareInterface scope typeName es) := by
  refine (RunsOnTop.report _).bind fun required => (RunsOnTop.report _).bind fun entries => ?_
  refine (runsOnTop_properties scope required entries).bind fun properties => ?_
  exact (runsOnTop_index scope properties _).bind fun index => .pure _

theorem runsOnTop_unreferred (es : Entries) :
    RunsOnTop (unreferred scope typeName es) c (declareOwn scope typeName es) := by
  unfold unreferred declareOwn
  cases enumValues? es with
  | some values => exact (RunsOnTop.report _).bind fun _ => .pure _
  | none =>
    refine (RunsOnTop.report _).bind fun interfaced => ?_
    split
    · exact (runsOnTop_interface scope typeName es).bind fun _ => .pure _
    · exact (runsOnTop_map scope _).bind fun _ => .pure _

/-- Whether one step follows references as another one does, in every context. -/
def FollowsAlike (follow : Option (Option String → Value → Mapping Declaration))
    (follow' : Option (Stack → Option String → Value → Lowering Declaration)) : Prop :=
  Option.Rel (fun next next' => ∀ c hop v, RunsOnTop (next hop v) c (next' c.stack hop v))
    follow follow'

section Follow

variable {follow : Option (Option String → Value → Mapping Declaration)}
  {follow' : Option (Stack → Option String → Value → Lowering Declaration)}
  (alike : FollowsAlike follow follow')

include alike

theorem runsOnTop_reference (firstHop : Option String) (ref : String) :
    RunsOnTop (reference scope typeName follow firstHop ref) c
      (declareReference scope typeName follow' c.stack firstHop ref) := by
  unfold reference declareReference
  cases componentOf? ref with
  | none => exact .report _
  | some target =>
    apply RunsOnTop.context_bind
    dsimp only
    by_cases seen : c.isResolving target = true
    · have listed : c.stack.contains target = true := seen
      rw [if_pos seen, if_pos listed]
      exact (RunsOnTop.report _).bind fun _ => .pure _
    · have absent : ¬c.stack.contains target = true := seen
      rw [if_neg seen, if_neg absent]
      cases alike with
      | none => cases component? scope.components target <;> exact .report _
      | some alike =>
        cases component? scope.components target with
        | none => exact .report _
        | some es => exact .resolving (alike (c.push target) _ _)

theorem runsOnTop_declaration (firstHop : Option String) (v : Value) :
    RunsOnTop (declaration scope typeName follow firstHop v) c
      (declareStep scope typeName follow' c.stack firstHop v) := by
  cases v with
  | map es =>
    refine (RunsOnTop.report _).bind fun _ => ?_
    cases Entries.find? "$ref" es with
    | none => exact runsOnTop_unreferred scope typeName es
    | some value =>
      exact (RunsOnTop.report _).bind fun ref =>
        runsOnTop_reference scope typeName alike firstHop ref
  | _ => exact (runsOnTop_map scope _).bind fun _ => .pure _

end Follow

theorem runsOnTop_following (links : Nat) (firstHop : Option String) (v : Value) :
    RunsOnTop (following scope typeName links firstHop v) c
      (declareWithin scope typeName links c.stack firstHop v) := by
  induction links generalizing c firstHop v with
  | zero => exact runsOnTop_declaration scope typeName .none firstHop v
  | succ links ih =>
    exact runsOnTop_declaration scope typeName (.some fun c hop v => ih hop v) firstHop v

/-- The mapper leaves the context as it was, and gives the declaration that is worked out without
one. -/
theorem runsOnTop_declare (name : String) (schema : Value) :
    RunsOnTop (declare scope name schema) c (Schema.declare scope c.stack name schema) :=
  .resolving (runsOnTop_following scope (Name.typeName name) _ none schema)

end Declarations

/-- Where no schema stands in another one, the mapper gives what is worked out without a context. -/
theorem declare_eq (scope : Scope) (stack : Stack) (name : String) (schema : Value) :
    declare scope name schema ⟨stack, 0⟩ = (Schema.declare scope stack name schema, ⟨stack, 0⟩) :=
  have runs := runsOnTop_declare scope name schema
  Prod.ext (runs.2 rfl) runs.1

theorem map_eq (scope : Scope) (stack : Stack) (schema : Value) :
    map scope schema ⟨stack, 0⟩ = (lower scope schema, ⟨stack, 0⟩) :=
  have runs := runsOnTop_map scope schema
  Prod.ext (runs.2 rfl) runs.1

theorem balanced_map (scope : Scope) (schema : Value) : Balanced (map scope schema) :=
  fun _ => (runsOnTop_map scope schema).1

theorem balanced_declare (scope : Scope) (name : String) (schema : Value) :
    Balanced (declare scope name schema) :=
  fun _ => (runsOnTop_declare scope name schema).1

end Mapper

/-! ### Sessions -/

namespace Session

open Mapping (Balanced)

/-- The names that are being resolved after a step: only those that push or pop one change them. -/
def Step.names (stack : Stack) : Step → Stack
  | .push name => pushName stack name
  | .pop name => stack.filter (· != name)
  | _ => stack

/-- A step changes the names that are being resolved by hand or not at all. -/
theorem take_context (scope : Scope) (c : Context) (step : Step) :
    (take scope c step).2 = { c with stack := step.names c.stack } := by
  cases step with
  | declare name schema => exact Mapper.balanced_declare scope name schema c
  | lower schema => exact Mapper.balanced_map scope schema c
  | _ => rfl

theorem foldl_after (s : Session) (steps : List Step) :
    (steps.foldl after s).toContext = { s.toContext with stack := steps.foldl Step.names s.stack } ∧
      (steps.foldl after s).scope = s.scope := by
  induction steps generalizing s with
  | nil => exact ⟨rfl, rfl⟩
  | cons step rest ih =>
    obtain ⟨context, scope⟩ := ih (s.after step)
    have first : (s.after step).toContext = { s.toContext with stack := step.names s.stack } :=
      take_context s.scope s.toContext step
    rw [List.foldl_cons, List.foldl_cons, context, scope, first]
    exact ⟨rfl, rfl⟩

theorem answers_run (s : Session) (before : List Step) (step : Step) (later : List Step) :
    ((s.run (before ++ step :: later)).map Prod.fst)[before.length]? =
      some ((before.foldl after s).answer step) := by
  induction before generalizing s with
  | nil => rfl
  | cons first rest ih => exact ih (s.after first)

end Session

/-- **The mapper leaves the context as it was.** Whatever names are being resolved and however deep
the context is, giving a type or a declaration leaves both as they were, whether it ends in a value
or in a failure. So in a session each answer is the one that the step has where only the names that
were pushed and popped before are counted, whatever was mapped or declared in between. -/
theorem mapper_balanced :
    (∀ scope schema, Mapping.Balanced (Mapper.map scope schema)) ∧
    (∀ scope name schema, Mapping.Balanced (Mapper.declare scope name schema)) ∧
    ∀ (s : Session) (before : List Session.Step) (step : Session.Step)
      (later : List Session.Step),
      ((s.run (before ++ step :: later)).map Prod.fst)[before.length]? =
        some (Session.take s.scope ⟨before.foldl Session.Step.names s.stack, s.depth⟩ step).1 := by
  refine ⟨Mapper.balanced_map, Mapper.balanced_declare, fun s before step later => ?_⟩
  obtain ⟨context, scope⟩ := s.foldl_after before
  rw [Session.answers_run, Session.answer, context, scope]

end ClientGen.Schema
