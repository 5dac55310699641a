import ClientGen.Proofs.Schema.Balanced
import ClientGen.Proofs.Schema.Chain
import ClientGen.Proofs.Schema.Invariant

/-!
# Declarations in any context

How a schema that is no reference is declared depends on the types of the schemas in it alone
(`ownWith`). A mapper gives these types as lowering does with the levels of nesting that its context
leaves (`runs_unreferred`), and follows references as they lead from component to component.

* **A declaration is that of the schema that references lead to** (`declare_cases`), or tells why
  they stop. An interface is always that of a schema (`declare_interface`).
* A schema that is no reference is declared exactly as it is itself (`declare_own_iff`).
-/

namespace ClientGen

deriving instance DecidableEq for Property, IndexSignature, Interface, Alias, Enumeration,
  Declaration

namespace Schema

open Report (Yields yields_bind bind_result_eq_ok_iff ofText_result_eq_ok_iff)

/-! ### Declarations by the types of schemas -/

section Typed

variable (typed : Value → Lowering TypeExpr)

/-- The property of an interface for one entry, where `typed` gives the types of schemas. -/
def propertyWith (required : List Key) : Key × Value → Lowering Property
  | (key, schema) => do
    let name ← Report.ofText key.shown
    let type ← typed schema
    return {
      name
      type
      isOptional := !isRequired required key
      isReadonly := isReadOnly schema
      documentation := schema.map?.bind documentation : Property }

/-- The index signature of an interface, where `typed` gives the types of schemas. -/
def indexWith (properties : List Property) : Value → Lowering (Option IndexSignature)
  | .bool true => pure (some ⟨"string", .any⟩)
  | .map [] => pure (some ⟨"string", .any⟩)
  | .map es => do return some ⟨"string", Mapper.indexType properties (← typed (.map es))⟩
  | _ => pure none

/-- The interface of an object schema, where `typed` gives the types of schemas. -/
def interfaceWith (typeName : String) (es : Entries) : Lowering Interface := do
  let required ← Report.ofOption (requiredKeys? (es.get "required"))
  let entries ← Report.ofOption (propertyEntries? (es.get "properties"))
  let properties ← eachOf (propertyWith typed required) entries
  let index ← indexWith typed properties (es.get "additionalProperties")
  return { name := typeName, properties, index, documentation := documentation es }

/-- The declaration of a schema that is no reference, where `typed` gives the types of schemas. -/
def ownWith (typeName : String) (es : Entries) : Lowering Declaration :=
  match enumValues? es with
  | some values => do
    let variants ← variantsAfter [] values
    return .enumeration { name := typeName, variants, documentation := documentation es }
  | none => do
    if ← Report.ofText (isInterface es) then
      return .interface (← interfaceWith typed typeName es)
    else
      let type ← typed (.map es)
      return .typeAlias { name := typeName, type, documentation := documentation es }

variable {typed} {typeName : String} {es : Entries}

/-- What makes a schema that is no reference an interface. -/
theorem ownWith_interface_iff {i : Interface} :
    (ownWith typed typeName es).result = .ok (.interface i) ↔ enumValues? es = none ∧
      isInterface es = .ok true ∧ (interfaceWith typed typeName es).result = .ok i := by
  unfold ownWith
  cases enumValues? es with
  | some values =>
    refine iff_of_false (fun ended => ?_) nofun
    obtain ⟨variants, -, other⟩ := bind_result_eq_ok_iff.1 ended
    cases other
  | none =>
    dsimp only
    rw [bind_result_eq_ok_iff, and_iff_right rfl]
    constructor
    · rintro ⟨interfaced, decided, ended⟩
      cases interfaced with
      | true =>
        obtain ⟨j, ended, same⟩ := bind_result_eq_ok_iff.1 ended
        cases same
        exact ⟨ofText_result_eq_ok_iff.1 decided, ended⟩
      | false =>
        obtain ⟨type, -, other⟩ := bind_result_eq_ok_iff.1 ended
        cases other
    · rintro ⟨decided, ended⟩
      exact ⟨true, ofText_result_eq_ok_iff.2 decided, bind_result_eq_ok_iff.2 ⟨i, ended, rfl⟩⟩

/-- The properties of an interface have types of schemas, and its index signature is the one beside
these properties. -/
theorem interfaceWith_yields {P : TypeExpr → Prop} (types : ∀ v, Yields P (typed v)) :
    Yields (fun i => (∀ p ∈ i.properties, P p.type) ∧
      (indexWith typed i.properties (es.get "additionalProperties")).result = .ok i.index)
      (interfaceWith typed typeName es) := by
  refine yields_bind fun required => yields_bind fun entries => ?_
  refine Yields.bind (P := fun ps => ∀ p ∈ ps, P p.type) ?_ fun properties listed => ?_
  · apply eachOf_yields
    intro (key, schema)
    exact yields_bind fun name => (types schema).bind fun type here => .pure here
  · intro i ended
    obtain ⟨index, indexed, same⟩ := bind_result_eq_ok_iff.1 ended
    cases same
    exact ⟨listed, indexed⟩

end Typed

/-! ### Steps in a context -/

namespace Mapping

variable {α β : Type} {c : Context} {x : Mapping α} {r : Lowering α} {f : α → Mapping β}

theorem Runs.bind_result_iff {b : β} (h : Runs x c r) : ((x >>= f) c).1.result = .ok b ↔
    ∃ a, r.result = .ok a ∧ (f a c).1.result = .ok b := by
  change (andThen x f c).1.result = .ok b ↔ _
  rw [andThen, h]
  obtain ⟨notes, result⟩ := r
  cases result with
  | error e =>
    constructor
    · intro ended
      cases ended
    · rintro ⟨a, ended, -⟩
      cases ended
  | ok a => simp

theorem Balanced.resolving_fst {name : String} (h : Balanced x) :
    (resolving name x c).1 = (x (c.push name)).1 := by
  have runs : Runs x (c.push name) (x (c.push name)).1 := Prod.ext rfl (h (c.push name))
  have whole : resolving name x c = ((x (c.push name)).1, c) := runs.resolving
  rw [whole]

end Mapping

namespace Mapper

open Mapping (Runs report)

variable {scope : Scope} {typeName : String} {c : Context}

theorem balanced_following {links : Nat} (firstHop : Option String) (v : Value) :
    Mapping.Balanced (following scope typeName links firstHop v) :=
  fun _ => (runsOnTop_following scope typeName links firstHop v).1

theorem runs_properties (required : List Key) (ps : Entries) :
    Runs (properties scope required ps) c
      (eachOf (propertyWith (lowerWithin scope (levelsLeft scope c)) required) ps) :=
  .each (fun (_, schema) => (Runs.report _).bind fun _ =>
    (runs_map scope c schema).bind fun _ => .pure _) ps

theorem runs_index (ps : List Property) (v : Value) :
    Runs (index scope ps v) c (indexWith (lowerWithin scope (levelsLeft scope c)) ps v) := by
  cases v with
  | bool b => cases b <;> exact .pure _
  | map es =>
    cases es with
    | nil => exact .pure _
    | cons e fs => exact (runs_map scope c _).bind fun value => .pure _
  | _ => exact .pure _

theorem runs_interface (es : Entries) : Runs (interface scope typeName es) c
    (interfaceWith (lowerWithin scope (levelsLeft scope c)) typeName es) := by
  refine (Runs.report _).bind fun required => (Runs.report _).bind fun entries => ?_
  refine (runs_properties required entries).bind fun properties => ?_
  exact (runs_index properties _).bind fun index => .pure _

theorem runs_unreferred (es : Entries) : Runs (unreferred scope typeName es) c
    (ownWith (lowerWithin scope (levelsLeft scope c)) typeName es) := by
  unfold unreferred ownWith
  cases enumValues? es with
  | some values => exact (Runs.report _).bind fun _ => .pure _
  | none =>
    refine (Runs.report _).bind fun interfaced => ?_
    split
    · exact (runs_interface es).bind fun _ => .pure _
    · exact (runs_map scope c _).bind fun _ => .pure _

/-! ### Chains of references in a context -/

section Steps

variable {follow : Option (Option String → Value → Mapping Declaration)} {firstHop : Option String}
  {es : Entries} {d : Declaration}

theorem declaration_own_iff (own : Entries.find? "$ref" es = none) :
    (declaration scope typeName follow firstHop (.map es) c).1.result = .ok d ↔ NamesVariants es ∧
      (ownWith (lowerWithin scope (levelsLeft scope c)) typeName es).result = .ok d := by
  unfold declaration
  rw [(Runs.report _).bind_result_iff, own]
  dsimp only
  rw [runs_unreferred]
  constructor
  · rintro ⟨⟨⟩, noted, ended⟩
    exact ⟨noteDiscriminator_result_iff.1 noted, ended⟩
  · rintro ⟨noted, ended⟩
    exact ⟨(), noteDiscriminator_result_iff.2 noted, ended⟩

/-- A reference is followed to a component that is not being resolved, or stops the chain. -/
theorem reference_cases {ref : String}
    (ended : (reference scope typeName follow firstHop ref c).1.result = .ok d) :
    Stops typeName d ∨ ∃ target es' next hop, componentOf? ref = some target ∧ target ∉ c.stack ∧
      component? scope.components target = some es' ∧ follow = some next ∧
      (Mapping.resolving target (next hop (.map es')) c).1.result = .ok d := by
  unfold reference at ended
  cases names : componentOf? ref with
  | none =>
    rw [names] at ended
    exact .inl (stops_declareUnresolved ended)
  | some target =>
    rw [names] at ended
    dsimp only at ended
    obtain ⟨_, ⟨⟩, ended⟩ := (Runs.context_bind (f := pure) (.pure c)).bind_result_iff.1 ended
    split at ended
    · cases ended
      exact .inl (.inr ⟨_, rfl⟩)
    · next new =>
      have unseen : target ∉ c.stack := by simpa [Context.isResolving] using new
      cases follow with
      | none => exact .inl (stops_declareUnresolved ended)
      | some next =>
        cases known : component? scope.components target with
        | none =>
          rw [known] at ended
          exact .inl (stops_declareUnresolved ended)
        | some es' =>
          rw [known] at ended
          exact .inr ⟨target, es', next, _, rfl, unseen, known, rfl, ended⟩

theorem declaration_reference {value : Value} (refers : Entries.find? "$ref" es = some value)
    (ended : (declaration scope typeName follow firstHop (.map es) c).1.result = .ok d) :
    NamesVariants es ∧ ∃ ref, value.shown = .ok ref ∧
      (reference scope typeName follow firstHop ref c).1.result = .ok d := by
  unfold declaration at ended
  rw [(Runs.report _).bind_result_iff, refers] at ended
  obtain ⟨⟨⟩, noted, ended⟩ := ended
  obtain ⟨ref, shown, ended⟩ := (Runs.report _).bind_result_iff.1 ended
  exact ⟨noteDiscriminator_result_iff.1 noted, ref, ofText_result_eq_ok_iff.1 shown, ended⟩

/-- A declaration is that of the schema that references lead to, or tells why they stop. -/
theorem following_cases {links : Nat}
    (ended : (following scope typeName links firstHop (.map es) c).1.result = .ok d) :
    Stops typeName d ∨ ∃ last, LeadsTo scope.components c.stack es last ∧
      (ownWith (lowerWithin scope (levelsLeft scope c)) typeName last).result = .ok d := by
  -- A component that is followed is declared where its name is being resolved, at the same depth.
  have step {follow : Option (Option String → Value → Mapping Declaration)} {c : Context}
      {firstHop : Option String} {es : Entries}
      (followed : ∀ next ∈ follow, ∀ target hop es',
        (Mapping.resolving target (next hop (.map es')) c).1.result = .ok d →
        Stops typeName d ∨ ∃ last, LeadsTo scope.components (pushName c.stack target) es' last ∧
          (ownWith (lowerWithin scope (levelsLeft scope c)) typeName last).result = .ok d)
      (ended : (declaration scope typeName follow firstHop (.map es) c).1.result = .ok d) :
      Stops typeName d ∨ ∃ last, LeadsTo scope.components c.stack es last ∧
        (ownWith (lowerWithin scope (levelsLeft scope c)) typeName last).result = .ok d := by
    cases refers : Entries.find? "$ref" es with
    | none =>
      obtain ⟨noted, ended⟩ := (declaration_own_iff refers).1 ended
      exact .inr ⟨es, .here noted refers, ended⟩
    | some value =>
      obtain ⟨noted, ref, shown, ended⟩ := declaration_reference refers ended
      rcases reference_cases ended with stops |
        ⟨target, es', next, hop, names, new, known, follows, ended⟩
      · exact .inl stops
      · refine (followed next follows target hop es' ended).imp_right ?_
        rintro ⟨last, leads, ended⟩
        exact ⟨last, .next noted refers shown names new known leads, ended⟩
  induction links generalizing c firstHop es with
  | zero => exact step (fun next mem => absurd mem (Option.not_mem_none next)) ended
  | succ links ih =>
    refine step (fun next mem target hop es' ended => ?_) ended
    rw [← Option.some.inj mem, (balanced_following hop _).resolving_fst] at ended
    exact ih ended

end Steps

/-- **A declaration is that of the schema that references lead to**, worked out with the levels of
nesting that the context leaves, or tells why they stop. -/
theorem declare_cases {name : String} {es : Entries} {d : Declaration}
    (ended : (declare scope name (.map es) c).1.result = .ok d) :
    Stops (Name.typeName name) d ∨
      ∃ last, LeadsTo scope.components (pushName c.stack name) es last ∧
        (ownWith (lowerWithin scope (levelsLeft scope c)) (Name.typeName name) last).result =
          .ok d := by
  rw [declare, (balanced_following none _).resolving_fst] at ended
  exact following_cases ended

/-- An interface is that of the schema that references lead to. -/
theorem declare_interface {name : String} {es : Entries} {i : Interface}
    (ended : (declare scope name (.map es) c).1.result = .ok (.interface i)) :
    ∃ last, LeadsTo scope.components (pushName c.stack name) es last ∧
      (interfaceWith (lowerWithin scope (levelsLeft scope c)) (Name.typeName name) last).result =
        .ok i := by
  rcases declare_cases ended with (⟨ref, other⟩ | ⟨closing, other⟩) | ⟨last, leads, ended⟩
  · cases other
  · cases other
  · exact ⟨last, leads, (ownWith_interface_iff.1 ended).2.2⟩

/-- A schema that is no reference is declared as it is. -/
theorem declare_own_iff {name : String} {es : Entries} {d : Declaration}
    (own : Entries.find? "$ref" es = none) :
    (declare scope name (.map es) c).1.result = .ok d ↔ NamesVariants es ∧
      (ownWith (lowerWithin scope (levelsLeft scope c)) (Name.typeName name) es).result =
        .ok d := by
  rw [declare, (balanced_following none _).resolving_fst]
  cases scope.components.length with
  | zero => exact declaration_own_iff own
  | succ links => exact declaration_own_iff own

end Mapper

end Schema

end ClientGen
