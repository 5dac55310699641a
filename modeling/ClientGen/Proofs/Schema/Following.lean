import ClientGen.Proofs.Schema.Chain
import ClientGen.Proofs.Schema.Invariant

/-!
# Where references end

A schema that is only a reference is followed to the component that it names, and so on along a path
of names (`Path`). The path ends (`Ends`) at a schema that is no reference, at a reference to
nothing, or at a reference to a name that was met before. Every schema has such a path, which meets
no name twice and so has no more links than there are components (`exists_path_ends`).

What stands at its end is what is declared, under the name that the path began with
(`declare_follows`): the declaration does not depend on how many more references may be followed
(`declareWithin_of_path`).
-/

namespace ClientGen.Schema

open Report (bind_result_eq_ok_iff)

/-! ### References -/

/-- What stands under the keyword that makes a schema a reference. -/
def referenceIn (v : Value) : Option Value := v.map?.bind (Entries.find? "$ref")

/-- Whether a schema is the reference `ref`. The texts that are asked for on the way can be written,
as they can be for all but integers of very many digits. -/
inductive IsReference : Value → String → Prop
  | mk {es : Entries} {value : Value} {ref : String} (noted : NamesVariants es)
      (refers : Entries.find? "$ref" es = some value) (shown : value.shown = .ok ref) :
      IsReference (.map es) ref

/-- Whether a schema is a reference, and a text that is asked for on the way cannot be written. -/
inductive IsUnreadable : Value → Prop
  | mk {es : Entries} {value : Value} (refers : Entries.find? "$ref" es = some value)
      (textless : NamesVariants es → ∀ ref, value.shown ≠ .ok ref) : IsUnreadable (.map es)

theorem referenceIn_cases (v : Value) :
    referenceIn v = none ∨ (∃ ref, IsReference v ref) ∨ IsUnreadable v := by
  cases v with
  | map es =>
    cases refers : Entries.find? "$ref" es with
    | none => exact .inl refers
    | some value =>
      by_cases readable : NamesVariants es ∧ ∃ ref, value.shown = .ok ref
      · obtain ⟨noted, ref, shown⟩ := readable
        exact .inr (.inl ⟨ref, .mk noted refers shown⟩)
      · exact .inr (.inr (.mk refers fun noted ref shown => readable ⟨noted, ref, shown⟩))
  | _ => exact .inl rfl

/-! ### Paths -/

/-- Whether references lead from a schema to another one, through the components of the names that
are listed. -/
inductive Path (components : Components) : Value → List String → Value → Prop
  | here (v : Value) : Path components v [] v
  | next {v last : Value} {ref target : String} {es : Entries} {targets : List String}
      (refers : IsReference v ref) (names : componentOf? ref = some target)
      (known : component? components target = some es)
      (rest : Path components (.map es) targets last) :
      Path components v (target :: targets) last

/-- Whether no reference leads on from a schema, where some names were met before. -/
inductive Ends (components : Components) (met : List String) (v : Value) : Prop
  | own (own : referenceIn v = none)
  | unresolved {ref : String} (refers : IsReference v ref)
      (nowhere : ∀ target, componentOf? ref = some target →
        target ∉ met ∧ component? components target = none)
  | circular {ref target : String} (refers : IsReference v ref)
      (names : componentOf? ref = some target) (again : target ∈ met)
  | unreadable (textless : IsUnreadable v)

theorem pushName_of_not_mem {stack : Stack} {name : String} (new : name ∉ stack) :
    pushName stack name = stack ++ [name] := by
  rw [pushName, if_neg (by simpa using new)]

/-- Each link of a path without repetitions takes it to another of the components that were not met
before, so there are no more links than such components. -/
theorem Path.length_le {components : Components} {v last : Value} {targets : List String}
    (path : Path components v targets last) (met : List String)
    (distinct : (met ++ targets).Nodup) : targets.length ≤ remaining components met := by
  induction path generalizing met with
  | here v => exact Nat.zero_le _
  | @next v last ref target es targets refers names known rest ih =>
    have new : target ∉ met := fun mem =>
      (List.nodup_append.1 distinct).2.2 target mem target List.mem_cons_self rfl
    have fewer := remaining_pushName_lt known new
    rw [pushName_of_not_mem new] at fewer
    rw [← List.singleton_append, ← List.append_assoc] at distinct
    have others := ih _ distinct
    rw [List.length_cons]
    omega

/-- **Every schema has a path without repetitions that ends.** -/
theorem exists_path_ends (components : Components) {met : List String} (distinct : met.Nodup)
    (v : Value) : ∃ targets last, Path components v targets last ∧ (met ++ targets).Nodup ∧
      Ends components (met ++ targets) last := by
  have stop (ends : Ends components met v) : ∃ targets last, Path components v targets last ∧
      (met ++ targets).Nodup ∧ Ends components (met ++ targets) last :=
    ⟨[], v, .here v, by simpa using distinct, by simpa using ends⟩
  rcases referenceIn_cases v with own | ⟨ref, refers⟩ | textless
  · exact stop (.own own)
  · cases names : componentOf? ref with
    | none => exact stop (.unresolved refers (by simp [names]))
    | some target =>
      by_cases again : target ∈ met
      · exact stop (.circular refers names again)
      · cases known : component? components target with
        | none =>
          refine stop (.unresolved refers fun other eq => ?_)
          rw [names] at eq
          cases eq
          exact ⟨again, known⟩
        | some es =>
          have fewer : remaining components (met ++ [target]) < remaining components met :=
            pushName_of_not_mem again ▸ remaining_pushName_lt known again
          have grown : (met ++ [target]).Nodup := by
            refine List.nodup_append.2 ⟨distinct, List.nodup_singleton target, ?_⟩
            intro name mem other here same
            rw [List.mem_singleton.1 here] at same
            exact again (same ▸ mem)
          obtain ⟨targets, last, path, nodup, ends⟩ :=
            exists_path_ends components grown (.map es)
          rw [List.append_assoc, List.singleton_append] at nodup ends
          exact ⟨target :: targets, last, .next refers names known path, nodup, ends⟩
  · exact stop (.unreadable textless)
termination_by remaining components met
decreasing_by exact fewer

/-! ### Following a path -/

section Steps

variable {scope : Scope} {typeName : String}
  {follow : Option (Stack → Option String → Value → Lowering Declaration)} {stack : Stack}
  {firstHop : Option String}

theorem warned_warning (w : Warning) (result : Except Failure Declaration) :
    warned ⟨[.warning w], result⟩ = ⟨[w], result⟩ := rfl

/-- Noting what tells variants apart gives no warning. -/
theorem warned_noteDiscriminator {es : Entries} (noted : NamesVariants es)
    (f : Unit → Lowering Declaration) :
    warned (noteDiscriminator typeName es >>= f) = warned (f ()) := by
  have silent : warningsOf (noteDiscriminator typeName es).notes = [] := by
    unfold noteDiscriminator
    split
    · next property _ => cases property.shown <;> rfl
    · rfl
  have ended : (noteDiscriminator typeName es).result = .ok () :=
    noteDiscriminator_result_iff.2 noted
  change warned (Report.andThen (noteDiscriminator typeName es) f) = _
  rw [Report.andThen, ended]
  simp only [warned, warningsOf, List.filterMap_append] at silent ⊢
  rw [silent, List.nil_append]

/-- What a reference is declared as, when its text is known. -/
def declareReference (scope : Scope) (typeName : String)
    (follow : Option (Stack → Option String → Value → Lowering Declaration)) (stack : Stack)
    (firstHop : Option String) (ref : String) : Lowering Declaration :=
  let hop := firstHop.getD (Name.typeName (displayName ref))
  match componentOf? ref with
  | none => declareUnresolved typeName ref
  | some target =>
    if stack.contains target then do
      warn (.circularReference typeName hop)
      return .typeAlias (circularAlias typeName hop)
    else
      match follow, component? scope.components target with
      | some next, some schema => next (pushName stack target) (some hop) (.map schema)
      | _, _ => declareUnresolved typeName ref

theorem warned_declareStep {v : Value} {ref : String} (refers : IsReference v ref) :
    warned (declareStep scope typeName follow stack firstHop v) =
      warned (declareReference scope typeName follow stack firstHop ref) := by
  obtain @⟨es, value, ref, noted, refers, shown⟩ := refers
  rw [declareStep, warned_noteDiscriminator noted, refers]
  dsimp only
  rw [shown]
  exact congrArg warned (pure_bind ref _)

theorem declareReference_next {ref target : String} {es : Entries}
    {next : Stack → Option String → Value → Lowering Declaration}
    (names : componentOf? ref = some target) (new : target ∉ stack)
    (known : component? scope.components target = some es) :
    declareReference scope typeName (some next) stack firstHop ref =
      next (stack ++ [target]) (some (firstHop.getD (Name.typeName target))) (.map es) := by
  rw [declareReference, names]
  dsimp only
  rw [if_neg (by simpa using new), known, displayName_of_componentOf? names,
    pushName_of_not_mem new]

theorem declareReference_unresolved {ref : String}
    (nowhere : ∀ target, componentOf? ref = some target →
      target ∉ stack ∧ component? scope.components target = none) :
    declareReference scope typeName follow stack firstHop ref = declareUnresolved typeName ref := by
  rw [declareReference]
  cases names : componentOf? ref with
  | none => rfl
  | some target =>
    obtain ⟨new, missing⟩ := nowhere target names
    dsimp only
    rw [if_neg (by simpa using new), missing]
    cases follow <;> rfl

theorem declareReference_circular {ref target : String} (names : componentOf? ref = some target)
    (again : target ∈ stack) :
    declareReference scope typeName follow stack firstHop ref =
      ⟨[.warning (.circularReference typeName (firstHop.getD (Name.typeName target)))],
        .ok (.typeAlias (circularAlias typeName (firstHop.getD (Name.typeName target))))⟩ := by
  rw [declareReference, names]
  dsimp only
  rw [if_pos (by simpa using again), displayName_of_componentOf? names]
  rfl

/-- A reference without a text is declared as nothing, however it was met. -/
theorem declareStep_unreadable (scope : Scope) (typeName : String) {v : Value}
    (textless : IsUnreadable v) :
    ∃ notes cause, ∀ follow stack firstHop,
      declareStep scope typeName follow stack firstHop v = ⟨notes, .error (.textless cause)⟩ := by
  obtain @⟨es, value, refers, textless⟩ := textless
  cases noted : (noteDiscriminator typeName es).result with
  | ok done =>
    have noted : NamesVariants es := noteDiscriminator_result_iff.1 noted
    cases shown : value.shown with
    | ok ref => exact absurd shown (textless noted ref)
    | error cause =>
      refine ⟨(noteDiscriminator typeName es).notes, cause, fun follow stack firstHop => ?_⟩
      rw [declareStep, refers, ← List.append_nil (noteDiscriminator typeName es).notes]
      change Report.andThen _ _ = _
      rw [Report.andThen, noteDiscriminator_result_iff.2 noted]
      dsimp only
      rw [shown]
      rfl
  | error e =>
    obtain ⟨cause, rfl⟩ : ∃ cause, e = .textless cause := by
      unfold noteDiscriminator at noted
      split at noted
      · next property _ =>
        cases shown : property.shown with
        | ok text => rw [shown] at noted; cases noted
        | error cause =>
          rw [shown] at noted
          cases noted
          exact ⟨cause, rfl⟩
      · cases noted
    refine ⟨(noteDiscriminator typeName es).notes, cause, fun follow stack firstHop => ?_⟩
    change Report.andThen _ _ = _
    rw [Report.andThen, noted]

/-- A schema that is no reference is declared alike however it was met. -/
theorem declareStep_of_own {v : Value} (own : referenceIn v = none)
    (follow' : Option (Stack → Option String → Value → Lowering Declaration)) (stack' : Stack)
    (firstHop' : Option String) :
    declareStep scope typeName follow stack firstHop v =
      declareStep scope typeName follow' stack' firstHop' v := by
  cases v with
  | map es =>
    have own : Entries.find? "$ref" es = none := own
    simp only [declareStep, own]
  | _ => rfl

theorem exists_declareStep (scope : Scope) (typeName : String) (links : Nat) : ∃ follow,
    declareWithin scope typeName links = declareStep scope typeName follow := by
  cases links with
  | zero => exact ⟨none, rfl⟩
  | succ links => exact ⟨some (declareWithin scope typeName links), rfl⟩

/-- Where no reference leads on, it does not matter how many more of them may be followed. -/
theorem declareWithin_of_ends {v : Value} (ends : Ends scope.components stack v)
    (links links' : Nat) : warned (declareWithin scope typeName links stack firstHop v) =
      warned (declareWithin scope typeName links' stack firstHop v) := by
  obtain ⟨follow, step⟩ := exists_declareStep scope typeName links
  obtain ⟨follow', step'⟩ := exists_declareStep scope typeName links'
  rw [step, step']
  cases ends with
  | own own => exact congrArg warned (declareStep_of_own own follow' stack firstHop)
  | unresolved refers nowhere =>
    rw [warned_declareStep refers, warned_declareStep refers, declareReference_unresolved nowhere,
      declareReference_unresolved nowhere]
  | circular refers names again =>
    rw [warned_declareStep refers, warned_declareStep refers,
      declareReference_circular names again, declareReference_circular names again]
  | unreadable textless =>
    obtain ⟨notes, cause, alike⟩ := declareStep_unreadable scope typeName textless
    rw [alike, alike]

/-- **What stands at the end of a path is declared**, if as many references may be followed as the
path has links. -/
theorem declareWithin_of_path {v last : Value} {targets : List String}
    (path : Path scope.components v targets last) (distinct : (stack ++ targets).Nodup)
    {links : Nat} (enough : targets.length ≤ links) :
    warned (declareWithin scope typeName links stack firstHop v) =
      warned (declareWithin scope typeName (links - targets.length) (stack ++ targets)
        (firstHop.or (targets.head?.map Name.typeName)) last) := by
  induction path generalizing stack firstHop links with
  | here v => simp
  | @next v last ref target es targets refers names known rest ih =>
    cases links with
    | zero => exact absurd enough (Nat.not_succ_le_zero _)
    | succ links =>
      have new : target ∉ stack := fun mem =>
        (List.nodup_append.1 distinct).2.2 target mem target List.mem_cons_self rfl
      have hop : (some (firstHop.getD (Name.typeName target))).or
            (targets.head?.map Name.typeName) =
          firstHop.or ((target :: targets).head?.map Name.typeName) := by
        cases firstHop <;> simp
      rw [← List.singleton_append, ← List.append_assoc] at distinct
      rw [declareWithin, warned_declareStep refers, declareReference_next names new known,
        ih distinct (Nat.le_of_succ_le_succ enough), hop, List.append_assoc,
        List.singleton_append, List.length_cons, Nat.add_sub_add_right]

end Steps

/-! ### Declarations -/

/-- What is declared under a name for a schema from which references lead to `last`, along a path
of other names. -/
structure DeclaredAlong (scope : Scope) (name : String) (schema : Value) (targets : List String)
    (last : Value) : Prop where
  bound : targets.length ≤ scope.components.length
  /-- No more references are followed than lead to `last`. -/
  enough : ∀ links ≥ targets.length,
    warned (declareWithin scope (Name.typeName name) links [name] none schema) =
      warned (declare scope [] name schema)
  own : referenceIn last = none →
    warned (declare scope [] name schema) = warned (declare scope [] name last)
  unresolved : ∀ ref, IsReference last ref →
    (∀ target, componentOf? ref = some target →
      target ≠ name ∧ component? scope.components target = none) →
    warned (declare scope [] name schema) =
      ⟨[.unresolvedDeclaration ref (Name.typeName name)],
        .ok (.typeAlias (unresolvedAlias (Name.typeName name) ref))⟩
  /-- The alias is closed with the type that the path began with, unless that is its own. -/
  circular : ∀ ref target, IsReference last ref → componentOf? ref = some target →
    target ∈ name :: targets → ∀ closing, closing = Name.typeName (targets.head?.getD target) →
    warned (declare scope [] name schema) =
      ⟨[.circularReference (Name.typeName name) closing],
        .ok (.typeAlias (circularAlias (Name.typeName name) closing))⟩ ∧
    (circularAlias (Name.typeName name) closing).type ≠ .named (Name.typeName name)
  unreadable : IsUnreadable last →
    ∃ cause, (declare scope [] name schema).result = .error (.textless cause)

theorem Path.component_of_mem {components : Components} {v last : Value} {targets : List String}
    (path : Path components v targets last) {name : String} (mem : name ∈ targets) :
    component? components name ≠ none := by
  induction path with
  | here v => exact absurd mem List.not_mem_nil
  | next refers names known rest ih =>
    rcases List.mem_cons.1 mem with rfl | mem
    · rw [known]
      exact Option.some_ne_none _
    · exact ih mem

/-- An alias that closes a circle is none of itself. -/
theorem circularAlias_ne (typeName closing : String) :
    (circularAlias typeName closing).type ≠ .named typeName := by
  unfold circularAlias
  dsimp only
  split
  · exact nofun
  · next other =>
    intro same
    cases same
    exact other rfl

theorem declaredAlong {scope : Scope} {name : String} {schema last : Value} {targets : List String}
    (path : Path scope.components schema targets last) (distinct : (name :: targets).Nodup)
    (ends : Ends scope.components (name :: targets) last) :
    DeclaredAlong scope name schema targets last := by
  have short : targets.length ≤ scope.components.length :=
    (path.length_le [name] distinct).trans List.countP_le_length
  have along {links : Nat} (enough : targets.length ≤ links) :
      warned (declareWithin scope (Name.typeName name) links [name] none schema) =
        warned (declareWithin scope (Name.typeName name) (links - targets.length) (name :: targets)
          (targets.head?.map Name.typeName) last) :=
    declareWithin_of_path path distinct enough
  obtain ⟨follow, step⟩ := exists_declareStep scope (Name.typeName name)
    (scope.components.length - targets.length)
  have declared : warned (declare scope [] name schema) =
      warned (declareStep scope (Name.typeName name) follow (name :: targets)
        (targets.head?.map Name.typeName) last) := by
    rw [← step]
    exact along short
  constructor
  case bound => exact short
  case enough =>
    intro links enough
    rw [along enough, declared, ← step]
    exact declareWithin_of_ends ends _ _
  case own =>
    intro own
    obtain ⟨follow', step'⟩ := exists_declareStep scope (Name.typeName name)
      scope.components.length
    rw [declared, declare, step']
    exact congrArg warned (declareStep_of_own own follow' _ none)
  case unresolved =>
    intro ref refers nowhere
    have unmet : ∀ target, componentOf? ref = some target →
        target ∉ name :: targets ∧ component? scope.components target = none := by
      intro target names
      obtain ⟨other, missing⟩ := nowhere target names
      refine ⟨fun met => ?_, missing⟩
      rcases List.mem_cons.1 met with same | met
      · exact other same
      · exact path.component_of_mem met missing
    rw [declared, warned_declareStep refers, declareReference_unresolved unmet]
    rfl
  case circular =>
    intro ref target refers names again closing begins
    refine ⟨?_, circularAlias_ne _ _⟩
    rw [begins, declared, warned_declareStep refers, declareReference_circular names again,
      Option.getD_map, warned_warning]
  case unreadable =>
    intro textless
    obtain ⟨notes, cause, alike⟩ := declareStep_unreadable scope (Name.typeName name) textless
    refine ⟨cause, ?_⟩
    rw [alike] at declared
    exact congrArg Report.result declared

/-- **Where references end is what is declared.** From every schema, references lead along a path
that meets no name twice, and the path ends. It has no more links than there are components, no more
references are followed than it has links, and what stands at its end decides on the declaration. -/
theorem declare_follows (scope : Scope) (name : String) (schema : Value) :
    (∃ targets last, Path scope.components schema targets last ∧ (name :: targets).Nodup ∧
      Ends scope.components (name :: targets) last) ∧
    ∀ targets last, Path scope.components schema targets last → (name :: targets).Nodup →
      Ends scope.components (name :: targets) last →
      DeclaredAlong scope name schema targets last := by
  refine ⟨?_, fun targets last path distinct ends => declaredAlong path distinct ends⟩
  exact exists_path_ends scope.components (List.nodup_singleton name) schema

/-- A schema that is a reference to a component. -/
def link (name : String) : Value := .map [(.str "$ref", .str (refPrefix ++ name))]

theorem isReference_link (name : String) : IsReference (link name) (refPrefix ++ name) :=
  .mk nofun rfl rfl

/-- Components that refer to one another, under names that make the same type name. -/
def circle : Scope := ⟨[("pet", link "Pet"), ("Pet", link "pet")], 64⟩

theorem declare_follows_of_circle : Path circle.components (link "Pet") ["Pet"] (link "pet") ∧
    warned (declare circle [] "pet" (link "Pet")) = ⟨[.circularReference "Pet" "Pet"],
      .ok (.typeAlias {
        name := "Pet"
        type := .unknown
        documentation := some "Circular reference to Pet" })⟩ := by
  have toPet : componentOf? (refPrefix ++ "Pet") = some "Pet" := Document.componentOf?_append "Pet"
  have back : componentOf? (refPrefix ++ "pet") = some "pet" := Document.componentOf?_append "pet"
  have path : Path circle.components (link "Pet") ["Pet"] (link "pet") :=
    .next (isReference_link "Pet") toPet rfl (.here _)
  have again : "pet" ∈ ["pet", "Pet"] := List.mem_cons_self
  have along := (declare_follows circle "pet" (link "Pet")).2 ["Pet"] (link "pet") path (by decide)
    (.circular (isReference_link "pet") back again)
  refine ⟨path, ?_⟩
  have named : Name.typeName "pet" = "Pet" := by decide +kernel
  rw [(along.circular _ "pet" (isReference_link "pet") back again "Pet" (by decide +kernel)).1,
    named]
  simp [circularAlias]

end ClientGen.Schema
