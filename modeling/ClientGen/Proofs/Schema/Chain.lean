import ClientGen.Proofs.Document.Renaming
import ClientGen.Proofs.Report.Matching
import ClientGen.Schema.Declare

/-!
# Chains of references

A schema that is only a reference is declared like the one that its references lead to (`LeadsTo`),
if they lead to one that is none. They may be followed that far: each of them leads to a component
that was not met before, so there are no more of them than components (`declareWithin_of_leadsTo`).
Else the declaration is an alias that tells why the chain ends (`declareWithin_cases`).
-/

namespace ClientGen.Schema

open Report (bind_result_eq_ok_iff ofText_result_eq_ok_iff)

/-- Whether the property that tells the variants of a schema apart has a text, if it names one. -/
def NamesVariants (es : Entries) : Prop :=
  ∀ property ∈ ((es.get "discriminator").field "propertyName").present?,
    ∃ text, property.shown = .ok text

theorem noteDiscriminator_result_iff {typeName : String} {es : Entries} :
    (noteDiscriminator typeName es).result = .ok () ↔ NamesVariants es := by
  unfold noteDiscriminator NamesVariants
  cases ((es.get "discriminator").field "propertyName").present? with
  | none => exact iff_of_true rfl nofun
  | some property =>
    simp only [Option.mem_some_iff, forall_eq', bind_result_eq_ok_iff, ofText_result_eq_ok_iff]
    exact ⟨fun ⟨text, shown, _⟩ => ⟨text, shown⟩, fun ⟨text, shown⟩ => ⟨text, shown, rfl⟩⟩

/-- Whether references lead from a schema to one that is none, while the names of a stack are being
resolved. -/
inductive LeadsTo (components : Components) : Stack → Entries → Entries → Prop
  | here {stack : Stack} {es : Entries} (noted : NamesVariants es)
      (own : Entries.find? "$ref" es = none) : LeadsTo components stack es es
  | next {stack : Stack} {es es' last : Entries} {value : Value} {ref target : String}
      (noted : NamesVariants es) (refers : Entries.find? "$ref" es = some value)
      (shown : value.shown = .ok ref) (names : componentOf? ref = some target)
      (new : target ∉ stack) (known : component? components target = some es')
      (rest : LeadsTo components (pushName stack target) es' last) :
      LeadsTo components stack es last

/-! ### Steps -/

section Step

variable {scope : Scope} {typeName : String}
  {follow : Option (Stack → Option String → Value → Lowering Declaration)} {stack : Stack}
  {firstHop : Option String} {es : Entries} {d : Declaration}

theorem declareStep_own (own : Entries.find? "$ref" es = none) :
    (declareStep scope typeName follow stack firstHop (.map es)).result = .ok d ↔
      NamesVariants es ∧ (declareOwn scope typeName es).result = .ok d := by
  rw [declareStep, bind_result_eq_ok_iff, own]
  constructor
  · rintro ⟨⟨⟩, noted, ended⟩
    exact ⟨noteDiscriminator_result_iff.1 noted, ended⟩
  · rintro ⟨noted, ended⟩
    exact ⟨(), noteDiscriminator_result_iff.2 noted, ended⟩

/-- What a reference becomes that cannot be followed. -/
def Stops (typeName : String) (d : Declaration) : Prop :=
  (∃ ref, d = .typeAlias (unresolvedAlias typeName ref)) ∨
    ∃ closing, d = .typeAlias (circularAlias typeName closing)

theorem stops_declareUnresolved {ref : String}
    (ended : (declareUnresolved typeName ref).result = .ok d) : Stops typeName d := by
  cases ended
  exact .inl ⟨ref, rfl⟩

/-- A reference is followed to a component that is not being resolved, or stops the chain. -/
theorem declareStep_reference {value : Value} (refers : Entries.find? "$ref" es = some value)
    (ended : (declareStep scope typeName follow stack firstHop (.map es)).result = .ok d) :
    Stops typeName d ∨ NamesVariants es ∧ ∃ ref target es' next hop, value.shown = .ok ref ∧
      componentOf? ref = some target ∧ target ∉ stack ∧
      component? scope.components target = some es' ∧ follow = some next ∧
      (next (pushName stack target) hop (.map es')).result = .ok d := by
  rw [declareStep, bind_result_eq_ok_iff, refers] at ended
  obtain ⟨⟨⟩, noted, ended⟩ := ended
  obtain ⟨ref, shown, ended⟩ := bind_result_eq_ok_iff.1 ended
  dsimp only at ended
  split at ended
  · exact .inl (stops_declareUnresolved ended)
  · next target names =>
    split at ended
    · cases ended
      exact .inl (.inr ⟨_, rfl⟩)
    · next new =>
      split at ended
      · next next es' known ended =>
        refine .inr ⟨noteDiscriminator_result_iff.1 noted, ref, target, es', next, _,
          ofText_result_eq_ok_iff.1 shown, names, ?_, known, rfl, ended⟩
        simpa using new
      · exact .inl (stops_declareUnresolved ended)

theorem declareStep_next {value : Value} {ref target : String} {es' : Entries}
    {next : Stack → Option String → Value → Lowering Declaration} (noted : NamesVariants es)
    (refers : Entries.find? "$ref" es = some value) (shown : value.shown = .ok ref)
    (names : componentOf? ref = some target) (new : target ∉ stack)
    (known : component? scope.components target = some es')
    (ended : ∀ hop, (next (pushName stack target) hop (.map es')).result = .ok d) :
    (declareStep scope typeName (some next) stack firstHop (.map es)).result = .ok d := by
  have unseen : stack.contains target = false := by simpa using new
  rw [declareStep, bind_result_eq_ok_iff, refers]
  refine ⟨(), noteDiscriminator_result_iff.2 noted, ?_⟩
  dsimp only
  rw [bind_result_eq_ok_iff]
  refine ⟨ref, ofText_result_eq_ok_iff.2 shown, ?_⟩
  rw [names]
  dsimp only
  rw [unseen, known]
  exact ended _

end Step

/-! ### Chains -/

/-- The number of components that are not being resolved. -/
def remaining (components : Components) (stack : Stack) : Nat :=
  components.countP fun c => !stack.contains c.1

theorem mem_pushName {stack : Stack} {target name : String} :
    name ∈ pushName stack target ↔ name ∈ stack ∨ name = target := by
  unfold pushName
  split
  · next seen =>
    refine ⟨.inl, fun mem => mem.elim id ?_⟩
    rintro rfl
    simpa using seen
  · rw [List.mem_append, List.mem_singleton]

theorem remaining_pushName_lt {components : Components} {stack : Stack} {target : String}
    {es : Entries} (known : component? components target = some es) (new : target ∉ stack) :
    remaining components (pushName stack target) < remaining components stack := by
  obtain ⟨schema, found, -⟩ := Option.bind_eq_some_iff.1 known
  obtain ⟨front, back, rfl⟩ := List.append_of_mem (Document.mem_of_lookup found)
  have fewer (cs : Components) : cs.countP (fun c => !(pushName stack target).contains c.1) ≤
      cs.countP fun c => !stack.contains c.1 := by
    refine List.countP_mono_left fun c _ other => ?_
    simp only [Bool.not_eq_true', List.contains_eq_mem, decide_eq_false_iff_not, mem_pushName,
      not_or] at other ⊢
    exact other.1
  have counted : (!stack.contains target) = true := by simpa using new
  have uncounted : (!(pushName stack target).contains target) = false := by
    simp [mem_pushName]
  unfold remaining
  rw [List.countP_append, List.countP_append, List.countP_cons, List.countP_cons, counted,
    uncounted]
  have := fewer front
  have := fewer back
  simp only [if_true, Bool.false_eq_true, if_false]
  omega

section Chain

variable {scope : Scope} {typeName : String} {d : Declaration}

/-- **What references lead to is declared**, if as many of them may be followed as there are
components that are not being resolved. -/
theorem declareWithin_of_leadsTo {stack : Stack} {es last : Entries}
    (leads : LeadsTo scope.components stack es last)
    (ended : (declareOwn scope typeName last).result = .ok d) {links : Nat}
    (enough : remaining scope.components stack ≤ links) (firstHop : Option String) :
    (declareWithin scope typeName links stack firstHop (.map es)).result = .ok d := by
  induction leads generalizing links firstHop with
  | here noted own =>
    cases links with
    | zero => exact (declareStep_own own).2 ⟨noted, ended⟩
    | succ links => exact (declareStep_own own).2 ⟨noted, ended⟩
  | next noted refers shown names new known rest ih =>
    have fewer := remaining_pushName_lt known new
    cases links with
    | zero => omega
    | succ links =>
      exact declareStep_next noted refers shown names new known fun hop => ih ended (by omega) hop

/-- A declaration is that of the schema that references lead to, or tells why they stop. -/
theorem declareWithin_cases {links : Nat} {stack : Stack} {firstHop : Option String} {es : Entries}
    (ended : (declareWithin scope typeName links stack firstHop (.map es)).result = .ok d) :
    Stops typeName d ∨ ∃ last, LeadsTo scope.components stack es last ∧
      (declareOwn scope typeName last).result = .ok d := by
  have step {follow : Option (Stack → Option String → Value → Lowering Declaration)}
      (followed : ∀ next ∈ follow, ∀ stack hop es', (next stack hop (.map es')).result = .ok d →
        Stops typeName d ∨ ∃ last, LeadsTo scope.components stack es' last ∧
          (declareOwn scope typeName last).result = .ok d)
      {stack : Stack} {firstHop : Option String} {es : Entries}
      (ended : (declareStep scope typeName follow stack firstHop (.map es)).result = .ok d) :
      Stops typeName d ∨ ∃ last, LeadsTo scope.components stack es last ∧
        (declareOwn scope typeName last).result = .ok d := by
    cases refers : Entries.find? "$ref" es with
    | none =>
      obtain ⟨noted, ended⟩ := (declareStep_own refers).1 ended
      exact .inr ⟨es, .here noted refers, ended⟩
    | some value =>
      rcases declareStep_reference refers ended with stops |
        ⟨noted, ref, target, es', next, hop, shown, names, new, known, follows, ended⟩
      · exact .inl stops
      · refine (followed next follows _ hop es' ended).imp_right ?_
        rintro ⟨last, leads, ended⟩
        exact ⟨last, .next noted refers shown names new known leads, ended⟩
  induction links generalizing stack firstHop es with
  | zero => exact step (fun next mem => absurd mem (Option.not_mem_none next)) ended
  | succ links ih =>
    refine step (fun next mem => ?_) ended
    rw [← Option.some.inj mem]
    exact fun stack hop es' => ih

end Chain

end ClientGen.Schema
