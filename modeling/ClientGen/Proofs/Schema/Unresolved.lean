import ClientGen.Proofs.Schema.Declarable
import ClientGen.Proofs.Schema.Following
import ClientGen.Proofs.Schema.Notes

/-!
# Warnings of unresolved references

A step gives the warnings of unresolved references that a list says, in its order; one that fails
may stop before it has given all of them (`Gives`). Steps one after the other give the warnings of
the one and then those of the other (`Gives.bind`).

* The type of a schema is given with the warnings for the schemas that are read in it, from the
  outside to the inside (`lowerWithin_gives`).
* A declaration is given with the warnings for what stands where its references end
  (`declare_gives`).
-/

namespace ClientGen

/-- Whether a warning says that a reference is unresolved. -/
def Warning.isUnresolved (w : Warning) : Bool := Text.startsWith "Unresolved reference " w.message

namespace Schema

open Report (Returns returns_bind_iff ofText_result_eq_ok_iff)

/-! ### Steps that give certain warnings -/

/-- The warnings of unresolved references that a step gives. -/
def unresolvedIn {α : Type} (x : Lowering α) : List Warning :=
  (warningsOf x.notes).filter (·.isUnresolved)

/-- Whether a step gives certain warnings of unresolved references, up to where it fails. -/
structure Gives {α : Type} (ws : List Warning) (x : Lowering α) : Prop where
  begins : unresolvedIn x <+: ws
  whole : Returns x → unresolvedIn x = ws

section Steps

variable {α β : Type} {ws vs : List Warning}

theorem gives_nil_of_unresolvedIn {x : Lowering α} (none : unresolvedIn x = []) : Gives [] x :=
  ⟨none ▸ List.nil_prefix, fun _ => none⟩

theorem gives_pure (a : α) : Gives [] (pure a : Lowering α) := gives_nil_of_unresolvedIn rfl

theorem gives_ofText (x : Except Textless α) : Gives [] (Report.ofText x : Lowering α) :=
  gives_nil_of_unresolvedIn rfl

theorem gives_ofOption (o : Option α) : Gives [] (Report.ofOption o : Lowering α) := by
  cases o <;> exact gives_nil_of_unresolvedIn rfl

theorem gives_warn {w : Warning} (unresolved : w.isUnresolved = true) : Gives [w] (warn w) := by
  have given : unresolvedIn (warn w) = [w] := List.filter_singleton.trans (by rw [unresolved]; rfl)
  exact ⟨given ▸ List.prefix_refl _, fun _ => given⟩

theorem gives_nil_warn {w : Warning} (other : w.isUnresolved = false) : Gives [] (warn w) :=
  gives_nil_of_unresolvedIn (List.filter_singleton.trans (by rw [other]; rfl))

theorem Gives.eq_nil {x : Lowering α} (h : Gives [] x) : unresolvedIn x = [] :=
  List.prefix_nil.1 h.begins

theorem unresolvedIn_bind {x : Lowering α} {f : α → Lowering β} {a : α}
    (ended : x.result = .ok a) :
    unresolvedIn (x >>= f) = unresolvedIn x ++ unresolvedIn (f a) := by
  obtain ⟨notes, result⟩ := x
  cases ended
  change (warningsOf (notes ++ (f a).notes)).filter _ = _
  rw [warningsOf, List.filterMap_append, List.filter_append]
  rfl

theorem unresolvedIn_bind_of_error {x : Lowering α} {f : α → Lowering β} {e : Failure}
    (failed : x.result = .error e) : unresolvedIn (x >>= f) = unresolvedIn x := by
  obtain ⟨notes, result⟩ := x
  cases failed
  rfl

/-- A step and then another, whose warnings may depend on what the first one ended in. -/
theorem Gives.bind_of_ok {x : Lowering α} {f : α → Lowering β} (first : Gives ws x)
    (next : ∀ a, x.result = .ok a → Gives vs (f a)) : Gives (ws ++ vs) (x >>= f) := by
  cases ended : x.result with
  | error e =>
    refine ⟨?_, fun returns => ?_⟩
    · rw [unresolvedIn_bind_of_error ended]
      exact first.begins.trans (List.prefix_append ws vs)
    · obtain ⟨a, ok, -⟩ := returns_bind_iff.1 returns
      rw [ended] at ok
      cases ok
  | ok a =>
    have all := first.whole ⟨a, ended⟩
    refine ⟨?_, fun returns => ?_⟩
    · rw [unresolvedIn_bind ended, all]
      exact (List.prefix_append_right_inj ws).2 (next a ended).begins
    · obtain ⟨a', ok, later⟩ := returns_bind_iff.1 returns
      cases ended.symm.trans ok
      rw [unresolvedIn_bind ended, all, (next a ended).whole later]

theorem Gives.bind {x : Lowering α} {f : α → Lowering β} (first : Gives ws x)
    (next : ∀ a, Gives vs (f a)) : Gives (ws ++ vs) (x >>= f) :=
  first.bind_of_ok fun a _ => next a

/-- A step that gives warnings, and then one that gives none. -/
theorem Gives.before {x : Lowering α} {f : α → Lowering β} (first : Gives ws x)
    (next : ∀ a, Gives [] (f a)) : Gives ws (x >>= f) := by
  have both := first.bind next
  rwa [List.append_nil] at both

theorem Gives.bind_pure {x : Lowering α} (h : Gives ws x) (f : α → β) :
    Gives ws (x >>= fun a => pure (f a)) := h.before fun a => gives_pure (f a)

theorem Gives.map {x : Lowering α} (h : Gives ws x) (f : α → β) : Gives ws (f <$> x) := by
  rw [map_eq_pure_bind]
  exact h.bind_pure f

/-- A step that gives no warnings, and then one that does. -/
theorem Gives.after {x : Lowering α} {f : α → Lowering β} (first : Gives [] x)
    (next : ∀ a, x.result = .ok a → Gives vs (f a)) : Gives vs (x >>= f) :=
  first.bind_of_ok next

theorem eachOf_gives {f : α → Lowering β} {given : α → List Warning} {as : List α}
    (h : ∀ a ∈ as, Gives (given a) (f a)) : Gives (as.flatMap given) (eachOf f as) := by
  induction as with
  | nil => exact gives_pure []
  | cons a rest ih =>
    obtain ⟨first, others⟩ := List.forall_mem_cons.1 h
    rw [List.flatMap_cons]
    exact first.bind fun b => (ih others).bind_pure _

theorem Gives.of_warned_eq {x y : Lowering α} (same : warned x = warned y) (h : Gives ws y) :
    Gives ws x := by
  have notes : unresolvedIn x = unresolvedIn y := by
    have told := congrArg Report.notes same
    change warningsOf x.notes = warningsOf y.notes at told
    rw [unresolvedIn, told, unresolvedIn]
  refine ⟨notes ▸ h.begins, fun returns => ?_⟩
  exact notes ▸ h.whole ((returns_iff_of_warned_eq same).1 returns)

end Steps

/-! ### The warnings that are given -/

theorem startsWith_append (pre s : String) : Text.startsWith pre (pre ++ s) = true := by
  rw [Text.startsWith, String.toList_append, Text.dropPrefix?_append]
  rfl

/-- A text does not begin with another one that differs from its own beginning somewhere. -/
theorem startsWith_append_of_ne {pre start : String} (n : Nat) {c d : Char}
    (here : pre.toList[n]? = some c) (there : start.toList[n]? = some d) (ne : c ≠ d)
    (s : String) : Text.startsWith pre (start ++ s) = false := by
  rw [Text.startsWith, Option.isSome_eq_false_iff, Option.isNone_iff_eq_none]
  cases dropped : Text.dropPrefix? pre.toList (start ++ s).toList with
  | none => rfl
  | some rest =>
    have same := congrArg (·[n]?) (Text.eq_append_of_dropPrefix? dropped)
    rw [String.toList_append, List.getElem?_append_left (List.getElem?_eq_some_iff.1 there).1,
      List.getElem?_append_left (List.getElem?_eq_some_iff.1 here).1, here, there] at same
    exact absurd (Option.some.inj same).symm ne

theorem isUnresolved_unresolvedType (ref : String) :
    (Warning.unresolvedType ref).isUnresolved = true := by
  have message : (Warning.unresolvedType ref).message =
      "Unresolved reference " ++ (ref ++ "; using any") := String.append_assoc ..
  exact (congrArg _ message).trans (startsWith_append _ _)

theorem isUnresolved_unresolvedDeclaration (ref typeName : String) :
    (Warning.unresolvedDeclaration ref typeName).isUnresolved = true := by
  have message : (Warning.unresolvedDeclaration ref typeName).message =
      "Unresolved reference " ++ (ref ++ (" in schema " ++ typeName)) :=
    (String.append_assoc ..).trans (String.append_assoc ..)
  exact (congrArg _ message).trans (startsWith_append _ _)

theorem isUnresolved_circularReference (typeName closing : String) :
    (Warning.circularReference typeName closing).isUnresolved = false := by
  have message : (Warning.circularReference typeName closing).message =
      "Circular reference from " ++ (typeName ++ (" to " ++ closing)) :=
    (String.append_assoc ..).trans (String.append_assoc ..)
  exact (congrArg _ message).trans
    (startsWith_append_of_ne 0 (c := 'U') (d := 'C') rfl rfl (by decide) _)

theorem isUnresolved_depthExceeded (limit : Int) :
    (Warning.depthExceeded limit).isUnresolved = false := by
  have message : (Warning.depthExceeded limit).message =
      "Schema nesting exceeds depth " ++ (toString limit ++ "; falling back to any") :=
    String.append_assoc ..
  exact (congrArg _ message).trans
    (startsWith_append_of_ne 0 (c := 'U') (d := 'S') rfl rfl (by decide) _)

theorem isUnresolved_unknownType (type : String) :
    (Warning.unknownType type).isUnresolved = false := by
  have message : (Warning.unknownType type).message =
      "Unknown schema type '" ++ (type ++ "'; using any") := String.append_assoc ..
  exact (congrArg _ message).trans
    (startsWith_append_of_ne 2 (c := 'r') (d := 'k') rfl rfl (by decide) _)

/-! ### Types -/

/-- Whether a reference is to a component. -/
def resolves (scope : Scope) (ref : String) : Bool :=
  ((componentOf? ref).filter fun name => (component? scope.components name).isSome).isSome

/-- The warning for a schema that is read, if it refers to no component. -/
def unresolvedAt (scope : Scope) (es : Entries) : List Warning :=
  match (es.get "$ref").str? with
  | some ref => if resolves scope ref then [] else [.unresolvedType ref]
  | none => []

/-- The warnings for the schemas that are read in a schema. -/
def unresolvedBelow (scope : Scope) (budget : Nat) (v : Value) : List Warning :=
  (schemasRead budget v).flatMap (unresolvedAt scope)

theorem lowerReference_gives (scope : Scope) (ref : String) :
    Gives (if resolves scope ref then [] else [.unresolvedType ref])
      (lowerReference scope ref) := by
  rw [lowerReference, resolves]
  cases (componentOf? ref).filter fun name => (component? scope.components name).isSome with
  | some name => exact gives_pure _
  | none => exact (gives_warn (isUnresolved_unresolvedType ref)).bind_pure _

theorem lowerLiteral_gives (v : Value) : Gives [] (lowerLiteral v) := by
  unfold lowerLiteral
  split
  · exact gives_pure _
  · exact (gives_ofText _).bind_pure _

section Parts

variable {sub : Value → Lowering TypeExpr} {given : Value → List Warning}

/-- Steps for the properties of an object. -/
theorem properties_gives {α : Type} {f : Key × Value → Lowering α}
    (step : ∀ p, Gives (given p.2) (f p)) {v : Value} {ps : Entries}
    (read : (Report.ofOption (propertyEntries? v) : Lowering Entries).result = .ok ps) :
    Gives ((membersOf v).flatMap given) (eachOf f ps) := by
  cases found : propertyEntries? v with
  | none =>
    rw [found] at read
    cases read
  | some ps' =>
    rw [found] at read
    cases read
    rw [← (propertyEntries?_eq found).1, List.flatMap_map]
    exact eachOf_gives fun p _ => step p

/-- A step for the values that are not listed, where their schema has one. -/
theorem additional_gives {α : Type} {f : Value → Lowering α}
    (anything : ∀ v, additionalParts v = [] → Gives [] (f v))
    (typed : ∀ e fs, Gives (given (.map (e :: fs))) (f (.map (e :: fs)))) (v : Value) :
    Gives ((additionalParts v).flatMap given) (f v) := by
  cases v with
  | map es =>
    cases es with
    | nil => exact anything _ rfl
    | cons e fs =>
      rw [additionalParts, List.flatMap_singleton]
      exact typed e fs
  | _ => exact anything _ rfl

variable (h : ∀ v, Gives (given v) (sub v))

include h

theorem eachOf_sub_gives (vs : List Value) : Gives (vs.flatMap given) (eachOf sub vs) :=
  eachOf_gives fun v _ => h v

theorem lowerAdditional_gives (v : Value) :
    Gives ((additionalParts v).flatMap given) (lowerAdditional sub v) := by
  refine additional_gives (fun v none => ?_) (fun e fs => (h _).bind_pure _) v
  unfold lowerAdditional
  split
  · exact gives_pure _
  · exact gives_pure _
  · next es some =>
    cases es with
    | nil => exact absurd rfl some
    | cons e fs => cases none
  · exact gives_pure _

theorem lowerObject_gives (es : Entries) :
    Gives ((objectParts es).flatMap given) (lowerObject sub es) := by
  refine (gives_ofOption _).after fun required _ => (gives_ofOption _).after fun ps read => ?_
  rw [objectParts, List.flatMap_append]
  refine (properties_gives (fun p => ?_) read).bind fun members => ?_
  · exact (gives_ofText _).after fun name _ => (h p.2).bind_pure _
  · refine (lowerAdditional_gives h _).before fun additional => ?_
    split
    · exact gives_pure _
    · exact gives_pure _
    · exact gives_pure _
    · split <;> exact gives_pure _

theorem lowerArray_gives (es : Entries) :
    Gives ((arrayParts es).flatMap given) (lowerArray sub es) := by
  rw [lowerArray_eq, arrayParts]
  cases itemsOf (es.get "prefixItems") with
  | cons first rest => exact (eachOf_sub_gives h _).bind_pure _
  | nil =>
    dsimp only
    generalize es.get "items" = v
    have alone (v : Value) :
        Gives ([v].flatMap given) (do return TypeExpr.array (← sub v) : Lowering TypeExpr) := by
      rw [List.flatMap_singleton]
      exact (h v).bind_pure _
    cases v with
    | null => exact gives_pure _
    | bool b =>
      cases b with
      | false => exact gives_pure _
      | true => exact alone _
    | _ => exact alone _

theorem lowerSingle_gives (es : Entries) (type : String) :
    Gives ((partsAs es type).flatMap given) (lowerSingle sub es type) := by
  rw [partsAs]
  by_cases array : type = "array"
  · subst array
    exact lowerArray_gives h es
  · rw [if_neg array]
    by_cases object : type = "object"
    · subst object
      exact lowerObject_gives h es
    · rw [if_neg object, lowerSingle, if_neg array, if_neg object]
      split
      · exact gives_pure _
      · exact (gives_nil_warn (isUnresolved_unknownType type)).bind_pure _

theorem lowerKeyword_gives (es : Entries) (keyword : String) :
    Gives ((itemsOf (es.get keyword)).flatMap given) (lowerKeyword sub es keyword) := by
  rw [lowerKeyword_eq]
  cases itemsOf (es.get keyword) with
  | nil => exact gives_pure _
  | cons first rest => exact (eachOf_sub_gives h _).bind_pure _

theorem ownPart_gives {es : Entries} (composed : isComposed es = true) :
    Gives (((typesRead es).flatMap (partsAs es)).flatMap given) (ownPart sub es) := by
  rw [ownPart, typesRead, if_pos composed]
  split
  · rw [List.flatMap_singleton]
    exact (lowerObject_gives h es).map _
  · exact gives_pure _

theorem lowerComposition_gives {es : Entries} (composed : isComposed es = true) :
    Gives ((alternativesOf es ++ (typesRead es).flatMap (partsAs es)).flatMap given)
      (lowerComposition sub es) := by
  rw [lowerComposition_eq, alternativesOf, if_pos composed, List.flatMap_append,
    List.flatMap_assoc]
  refine Gives.before ?_ fun type => (gives_ofText _).bind_pure _
  refine (eachOf_gives fun keyword _ => lowerKeyword_gives h es keyword).bind fun parts => ?_
  exact (ownPart_gives h composed).bind_pure _

theorem lowerOpen_gives (es : Entries) :
    Gives ((alternativesOf es ++ (typesRead es).flatMap (partsAs es)).flatMap given)
      (lowerOpen sub es) := by
  rw [lowerOpen]
  cases composed : isComposed es with
  | true =>
    rw [if_pos rfl]
    exact lowerComposition_gives h composed
  | false =>
    rw [if_neg Bool.false_ne_true, alternativesOf, composed, if_neg Bool.false_ne_true,
      List.nil_append, typesRead, composed, if_neg Bool.false_ne_true]
    refine (gives_ofText _).after fun types ended => ?_
    rw [ofText_result_eq_ok_iff.1 ended]
    show Gives ((types.flatMap (partsAs es)).flatMap given) _
    rw [List.flatMap_assoc]
    cases types with
    | nil => exact gives_pure _
    | cons type rest => exact (eachOf_gives fun type _ => lowerSingle_gives h es type).bind_pure _

/-- The type of a schema is given with the warning for its reference or for the schemas in it. -/
theorem lowerEntries_gives (scope : Scope) (es : Entries) :
    Gives (unresolvedAt scope es ++ (partsOf es).flatMap given) (lowerEntries sub scope es) := by
  rw [lowerEntries_eq, unresolvedAt, partsOf, isOpen]
  cases (es.get "$ref").str? with
  | some ref =>
    have reference := lowerReference_gives scope ref
    simpa using reference
  | none =>
    dsimp only
    rw [lowerUnreferred]
    cases literalsOf es with
    | nil => exact lowerOpen_gives h es
    | cons v rest =>
      have literals : Gives ((v :: rest).flatMap fun _ => []) (eachOf lowerLiteral (v :: rest)) :=
        eachOf_gives fun v _ => lowerLiteral_gives v
      rw [List.flatMap_eq_nil_iff.2 fun _ _ => rfl] at literals
      exact literals.bind_pure _

end Parts

/-- **The type of a schema is given with the warnings for the schemas that are read in it.** -/
theorem lowerWithin_gives (scope : Scope) (budget : Nat) (v : Value) :
    Gives (unresolvedBelow scope budget v) (lowerWithin scope budget v) := by
  induction budget generalizing v with
  | zero =>
    cases v with
    | map es => exact (gives_nil_warn (isUnresolved_depthExceeded _)).bind_pure _
    | bool b => cases b <;> exact gives_pure _
    | _ => exact gives_pure _
  | succ budget ih =>
    cases v with
    | map es =>
      rw [unresolvedBelow, schemasRead, List.flatMap_cons, List.flatMap_assoc]
      exact (lowerEntries_gives ih scope es).bind_pure _
    | bool b => cases b <;> exact gives_pure _
    | _ => exact gives_pure _

/-! ### Declarations -/

/-- The warnings for a schema that is declared and is no reference, if `below` are those for a
schema that is lowered. -/
def unresolvedInOwn (below : Value → List Warning) (es : Entries) : List Warning :=
  if (enumValues? es).isSome then []
  else
    match isInterface es with
    | .ok true => (objectParts es).flatMap below
    | .ok false => below (.map es)
    | .error _ => []

/-- The warnings for a schema that stands where references end. -/
def unresolvedAtEnd (below : Value → List Warning) (typeName : String) : Value → List Warning
  | .map es =>
    match Entries.find? "$ref" es with
    | none => unresolvedInOwn below es
    | some value =>
      match value.shown with
      | .ok ref =>
        if (componentOf? ref).isNone then [.unresolvedDeclaration ref typeName] else []
      | .error _ => []
  | _ => []

section AtEnd

variable {below below' : Value → List Warning} {typeName : String} {es : Entries}

theorem unresolvedInOwn_congr (whole : below (.map es) = below' (.map es))
    (parts : ∀ part ∈ objectParts es, below part = below' part) :
    unresolvedInOwn below es = unresolvedInOwn below' es := by
  rw [unresolvedInOwn, unresolvedInOwn, whole, List.flatMap_congr parts]

theorem unresolvedInOwn_eq_nil (whole : below (.map es) = [])
    (parts : ∀ part ∈ objectParts es, below part = []) : unresolvedInOwn below es = [] := by
  rw [unresolvedInOwn, whole, List.flatMap_eq_nil_iff.2 parts]
  split
  · rfl
  · split <;> rfl

theorem unresolvedAtEnd_reference {v : Value} {ref : String} (refers : IsReference v ref) :
    unresolvedAtEnd below typeName v =
      if (componentOf? ref).isNone then [.unresolvedDeclaration ref typeName] else [] := by
  obtain @⟨es, value, ref, noted, refers, shown⟩ := refers
  rw [unresolvedAtEnd, refers]
  simp only [shown]

end AtEnd

section Declarations

variable {scope : Scope} {typeName : String}

theorem lower_gives (scope : Scope) (v : Value) :
    Gives (unresolvedBelow scope scope.budget v) (lower scope v) := lowerWithin_gives scope _ v

theorem lower_gives_of_map?_eq_none {v : Value} (noMap : v.map? = none) :
    Gives [] (lower scope v) := by
  have given := lower_gives scope v
  rwa [unresolvedBelow, schemasRead_of_map?_eq_none noMap] at given

theorem variantsAfter_gives (used : List String) (values : List Value) :
    Gives [] (variantsAfter used values) := by
  induction values generalizing used with
  | nil => exact gives_pure _
  | cons value rest ih =>
    refine (gives_ofText _).after fun base _ => (gives_ofText _).after fun text _ => ?_
    exact (ih _).bind_pure _

theorem declareInterface_gives (typeName : String) (es : Entries) :
    Gives ((objectParts es).flatMap (unresolvedBelow scope scope.budget))
      (declareInterface scope typeName es) := by
  refine (gives_ofOption _).after fun required _ => (gives_ofOption _).after fun ps read => ?_
  rw [objectParts, List.flatMap_append]
  refine (properties_gives (fun p => ?_) read).bind fun properties => Gives.bind_pure ?_ _
  · exact (gives_ofText _).after fun name _ => (lower_gives scope p.2).bind_pure _
  · refine additional_gives (fun v none => ?_) (fun e fs => ?_) _
    · unfold interfaceIndex
      split
      · exact gives_pure _
      · exact gives_pure _
      · next es some =>
        cases es with
        | nil => exact absurd rfl some
        | cons e fs => cases none
      · exact gives_pure _
    · refine (lower_gives scope _).before fun value => ?_
      split <;> exact gives_pure _

theorem declareOwn_gives (typeName : String) (es : Entries) :
    Gives (unresolvedInOwn (unresolvedBelow scope scope.budget) es)
      (declareOwn scope typeName es) := by
  rw [declareOwn, unresolvedInOwn]
  cases enumValues? es with
  | some values => exact (variantsAfter_gives [] values).bind_pure _
  | none =>
    refine (gives_ofText _).after fun interfaced ended => ?_
    rw [ofText_result_eq_ok_iff.1 ended]
    cases interfaced with
    | true => exact (declareInterface_gives typeName es).bind_pure _
    | false => exact (lower_gives scope _).bind_pure _

theorem noteDiscriminator_gives (typeName : String) (es : Entries) :
    Gives [] (noteDiscriminator typeName es) := by
  unfold noteDiscriminator
  split
  · exact (gives_ofText _).after fun text _ => gives_nil_of_unresolvedIn rfl
  · exact gives_pure _

variable {follow : Option (Stack → Option String → Value → Lowering Declaration)} {stack : Stack}
  {firstHop : Option String} {ws : List Warning}

theorem declareStep_gives_of_own {v : Value} (own : referenceIn v = none) :
    Gives (unresolvedAtEnd (unresolvedBelow scope scope.budget) typeName v)
      (declareStep scope typeName follow stack firstHop v) := by
  cases v with
  | map es =>
    have own : Entries.find? "$ref" es = none := own
    rw [declareStep, unresolvedAtEnd, own]
    exact (noteDiscriminator_gives typeName es).after fun _ _ => declareOwn_gives typeName es
  | _ => exact (lower_gives_of_map?_eq_none rfl).bind_pure _

theorem declareStep_gives_of_reference {v : Value} {ref : String} (refers : IsReference v ref)
    (named : Gives ws (declareReference scope typeName follow stack firstHop ref)) :
    Gives ws (declareStep scope typeName follow stack firstHop v) := by
  obtain @⟨es, value, ref, noted, refers, shown⟩ := refers
  rw [declareStep, refers]
  refine (noteDiscriminator_gives typeName es).after fun _ _ => ?_
  refine (gives_ofText _).after fun ref' shown' => ?_
  cases shown.symm.trans (ofText_result_eq_ok_iff.1 shown')
  exact named

theorem declareStep_gives_of_unreadable {v : Value} (textless : IsUnreadable v) :
    Gives ws (declareStep scope typeName follow stack firstHop v) := by
  obtain @⟨es, value, refers, textless⟩ := textless
  rw [declareStep, refers]
  refine (noteDiscriminator_gives typeName es).after fun _ noted => ?_
  refine (gives_ofText _).after fun ref shown => ?_
  exact absurd (ofText_result_eq_ok_iff.1 shown)
    (textless (noteDiscriminator_result_iff.1 noted) ref)

/-- **A declaration is given with the warnings for what stands where its references end**, if they
do not end at a reference to a component that is missing. -/
theorem declare_gives {name : String} {schema last : Value} {targets : List String}
    (path : Path scope.components schema targets last) (distinct : (name :: targets).Nodup)
    (ends : Ends scope.components (name :: targets) last)
    (known : ∀ ref target, IsReference last ref → componentOf? ref = some target →
      component? scope.components target ≠ none) :
    Gives (unresolvedAtEnd (unresolvedBelow scope scope.budget) (Name.typeName name) last)
      (declare scope [] name schema) := by
  have short : targets.length ≤ scope.components.length :=
    (path.length_le [name] distinct).trans List.countP_le_length
  obtain ⟨follow, step⟩ := exists_declareStep scope (Name.typeName name)
    (scope.components.length - targets.length)
  have along : warned (declare scope [] name schema) =
      warned (declareWithin scope (Name.typeName name) (scope.components.length - targets.length)
        (name :: targets) (targets.head?.map Name.typeName) last) :=
    declareWithin_of_path path distinct short
  refine .of_warned_eq along ?_
  rw [step]
  cases ends with
  | own own => exact declareStep_gives_of_own own
  | @unresolved ref refers nowhere =>
    have none : componentOf? ref = none := by
      cases names : componentOf? ref with
      | none => rfl
      | some target => exact absurd (nowhere target names).2 (known ref target refers names)
    rw [unresolvedAtEnd_reference refers, none]
    refine declareStep_gives_of_reference refers ?_
    rw [declareReference_unresolved fun target names => ?_]
    · exact (gives_warn (isUnresolved_unresolvedDeclaration ref _)).bind_pure _
    · rw [none] at names
      cases names
  | @circular ref target refers names again =>
    rw [unresolvedAtEnd_reference refers, names]
    refine declareStep_gives_of_reference refers ?_
    rw [declareReference_circular names again]
    exact gives_nil_of_unresolvedIn (gives_nil_warn (isUnresolved_circularReference _ _)).eq_nil
  | unreadable textless => exact declareStep_gives_of_unreadable textless

end Declarations

end Schema

end ClientGen
