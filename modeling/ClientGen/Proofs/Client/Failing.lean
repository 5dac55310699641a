import ClientGen.Client.ApiClass
import ClientGen.Proofs.Report.Failing
import ClientGen.Proofs.Schema.Parts
import ClientGen.Schema.Declare

/-!
# Why there is no type or class

Lowering a schema (`fails_lower`) and declaring one (`fails_declare`) fail only because of values
that cannot be used where they stand. So the classes for the operations of a document are built
unless a value cannot be used where it stands (`fails_apiClasses`).
-/

namespace ClientGen.Schema

open Failure (IsAboutValue)
open Report (Fails fails_pure fails_note fails_ofOption fails_ofText)

theorem fails_warn (w : Warning) : Fails IsAboutValue (warn w) := fails_note _

theorem fails_eachOf {α β : Type} {f : α → Lowering β} (h : ∀ a, Fails IsAboutValue (f a))
    (as : List α) : Fails IsAboutValue (eachOf f as) := by
  induction as with
  | nil => exact fails_pure _
  | cons a rest ih => exact (h a).bind fun b => ih.bind_pure _

theorem fails_lowerReference (scope : Scope) (ref : String) :
    Fails IsAboutValue (lowerReference scope ref) := by
  unfold lowerReference
  split
  · exact fails_pure _
  · exact (fails_warn _).bind_pure _

theorem fails_lowerLiteral (v : Value) : Fails IsAboutValue (lowerLiteral v) := by
  unfold lowerLiteral
  split
  · exact fails_pure _
  · exact (fails_ofText _).bind_pure _

section Parts

variable {sub : Value → Lowering TypeExpr} (nested : ∀ v, Fails IsAboutValue (sub v))

include nested

theorem fails_lowerMembers (required : List Key) (properties : Entries) :
    Fails IsAboutValue (lowerMembers sub required properties) :=
  fails_eachOf (fun _ => (fails_ofText _).bind fun _ => (nested _).bind_pure _) _

theorem fails_lowerAdditional (additional : Value) :
    Fails IsAboutValue (lowerAdditional sub additional) := by
  unfold lowerAdditional
  split
  · exact fails_pure _
  · exact fails_pure _
  · exact (nested _).bind_pure _
  · exact fails_pure _

theorem fails_lowerObject (es : Entries) : Fails IsAboutValue (lowerObject sub es) := by
  refine (fails_ofOption _).bind fun required => (fails_ofOption _).bind fun properties => ?_
  refine (fails_lowerMembers nested required properties).bind fun members => ?_
  refine (fails_lowerAdditional nested _).bind fun additional => ?_
  split
  · exact fails_pure _
  · exact fails_pure _
  · exact fails_pure _
  · split
    · exact fails_pure _
    · exact fails_pure _

theorem fails_lowerArray (es : Entries) : Fails IsAboutValue (lowerArray sub es) := by
  unfold lowerArray
  split
  · exact (fails_eachOf nested _).bind_pure _
  · split
    · exact fails_pure _
    · exact fails_pure _
    · exact (nested _).bind_pure _

theorem fails_lowerSingle (es : Entries) (type : String) :
    Fails IsAboutValue (lowerSingle sub es type) := by
  unfold lowerSingle
  split
  · exact fails_pure _
  · exact .ite (fails_lowerArray nested es)
      (.ite (fails_lowerObject nested es) ((fails_warn _).bind_pure _))

theorem fails_lowerKeyword (es : Entries) (keyword : String) :
    Fails IsAboutValue (lowerKeyword sub es keyword) := by
  unfold lowerKeyword
  split
  · exact (fails_eachOf nested _).bind_pure _
  · exact fails_pure _

theorem fails_lowerComposition (es : Entries) :
    Fails IsAboutValue (lowerComposition sub es) := by
  refine (fails_eachOf (fails_lowerKeyword nested es) _).bind fun parts => ?_
  exact .ite (((fails_lowerObject nested es).map _).bind fun own => (fails_ofText _).bind_pure _)
    ((fails_pure _).bind fun own => (fails_ofText _).bind_pure _)

theorem fails_lowerEntries (scope : Scope) (es : Entries) :
    Fails IsAboutValue (lowerEntries sub scope es) := by
  unfold lowerEntries
  split
  · exact fails_lowerReference scope _
  · split
    · exact fails_lowerLiteral _
    · split
      · exact (fails_eachOf fails_lowerLiteral _).bind_pure _
      · refine .ite (fails_lowerComposition nested es) ((fails_ofText _).bind fun types => ?_)
        split
        · exact fails_pure _
        · exact (fails_eachOf (fails_lowerSingle nested es) _).bind_pure _

end Parts

theorem fails_lowerWithin (scope : Scope) (budget : Nat) (v : Value) :
    Fails IsAboutValue (lowerWithin scope budget v) := by
  induction budget generalizing v with
  | zero =>
    cases v with
    | map es => exact (fails_warn _).bind_pure _
    | bool b => cases b <;> exact fails_pure _
    | _ => exact fails_pure _
  | succ budget ih =>
    cases v with
    | map es => exact (fails_lowerEntries ih scope es).bind_pure _
    | bool b => cases b <;> exact fails_pure _
    | _ => exact fails_pure _

/-- **A schema has no type** only because of a value that cannot be used where it stands. -/
theorem fails_lower (scope : Scope) (v : Value) : Fails IsAboutValue (lower scope v) :=
  fails_lowerWithin scope scope.budget v

/-! ### Declarations -/

theorem fails_variantsAfter (used : List String) (values : List Value) :
    Fails IsAboutValue (variantsAfter used values) := by
  induction values generalizing used with
  | nil => exact fails_pure _
  | cons value rest ih =>
    exact (fails_ofText _).bind fun base => (fails_ofText _).bind fun text => (ih _).bind_pure _

theorem fails_interfaceIndex (scope : Scope) (properties : List Property) (additional : Value) :
    Fails IsAboutValue (interfaceIndex scope properties additional) := by
  unfold interfaceIndex
  split
  · exact fails_pure _
  · exact fails_pure _
  · exact (fails_lower scope _).bind fun value => .ite (fails_pure _) (fails_pure _)
  · exact fails_pure _

theorem fails_declareInterface (scope : Scope) (typeName : String) (es : Entries) :
    Fails IsAboutValue (declareInterface scope typeName es) := by
  refine (fails_ofOption _).bind fun required => (fails_ofOption _).bind fun entries => ?_
  refine .bind (fails_eachOf (fun _ => (fails_ofText _).bind fun _ =>
    (fails_lower scope _).bind_pure _) entries) fun properties => ?_
  exact (fails_interfaceIndex scope properties _).bind_pure _

theorem fails_declareOwn (scope : Scope) (typeName : String) (es : Entries) :
    Fails IsAboutValue (declareOwn scope typeName es) := by
  unfold declareOwn
  split
  · exact (fails_variantsAfter _ _).bind_pure _
  · refine (fails_ofText _).bind fun isInterface => ?_
    exact .ite ((fails_declareInterface scope typeName es).bind_pure _)
      ((fails_lower scope _).bind_pure _)

theorem fails_declareStep (scope : Scope) (typeName : String)
    {follow : Option (Stack → Option String → Value → Lowering Declaration)}
    (followed : ∀ next ∈ follow, ∀ stack hop v, Fails IsAboutValue (next stack hop v))
    (stack : Stack) (firstHop : Option String) (v : Value) :
    Fails IsAboutValue (declareStep scope typeName follow stack firstHop v) := by
  have unresolved (ref : String) : Fails IsAboutValue (declareUnresolved typeName ref) :=
    (fails_warn _).bind_pure _
  cases v with
  | map es =>
    refine .bind ?_ fun _ => ?_
    · unfold noteDiscriminator
      split
      · exact (fails_ofText _).bind fun _ => fails_note _
      · exact fails_pure _
    split
    · exact fails_declareOwn scope typeName es
    · refine (fails_ofText _).bind fun ref => ?_
      dsimp only
      split
      · exact unresolved ref
      · split
        · exact (fails_warn _).bind_pure _
        · split
          · exact followed _ rfl _ _ _
          · exact unresolved ref
  | _ => exact (fails_lower scope _).bind_pure _

theorem fails_declareWithin (scope : Scope) (typeName : String) (links : Nat) (stack : Stack)
    (firstHop : Option String) (v : Value) :
    Fails IsAboutValue (declareWithin scope typeName links stack firstHop v) := by
  induction links generalizing stack firstHop v with
  | zero =>
    refine fails_declareStep scope typeName (fun next mem => ?_) stack firstHop v
    exact absurd mem (Option.not_mem_none next)
  | succ links ih =>
    refine fails_declareStep scope typeName (fun next mem => ?_) stack firstHop v
    rw [← Option.some.inj mem]
    exact ih

/-- **A schema cannot be declared** only because of a value that cannot be used where it stands. -/
theorem fails_declare (scope : Scope) (stack : Stack) (name : String) (schema : Value) :
    Fails IsAboutValue (declare scope stack name schema) :=
  fails_declareWithin scope _ _ _ _ _

end ClientGen.Schema

namespace ClientGen.Client

open Failure (IsAboutValue)
open Report (Fails fails_pure fails_malformed fails_ofOption fails_ofText)
open Schema (Scope fails_lower fails_warn)

/-! ### Parameters -/

theorem fails_typeOfParameter (scope : Scope) (p : Parameter) :
    Fails IsAboutValue (typeOfParameter scope p) := by
  unfold typeOfParameter
  split
  · exact fails_pure _
  · exact fails_lower scope _

theorem fails_defaultOf (schema : Value) : Fails IsAboutValue (defaultOf schema) :=
  .ite (fails_pure _) ((fails_ofOption _).bind_pure _)

theorem fails_sortParameters (scope : Scope) (o : Operation) (placeholders used : List String)
    (parameters : List Parameter) :
    Fails IsAboutValue (sortParameters scope o placeholders used parameters) := by
  induction parameters generalizing used with
  | nil => exact fails_pure _
  | cons p rest ih =>
    refine (fails_typeOfParameter scope p).bind fun type => ?_
    refine (fails_defaultOf _).bind fun default => ?_
    split
    · exact (fails_ofText _).bind fun location => (fails_warn _).bind fun _ => ih used
    · exact (ih _).bind_pure _

theorem fails_bodyInput (scope : Scope) (o : Operation) (used : List String) :
    Fails IsAboutValue (bodyInput scope o used) := by
  unfold bodyInput
  split
  · exact fails_pure _
  · split
    · exact fails_pure _
    · exact fails_pure _
    · exact (fails_lower scope _).bind_pure _

theorem fails_inputsOf (scope : Scope) (o : Operation) :
    Fails IsAboutValue (inputsOf scope o) :=
  (fails_sortParameters scope o _ _ _).bind fun _ => (fails_bodyInput scope o _).bind_pure _

/-! ### Methods -/

theorem fails_responseOf (scope : Scope) (o : Operation) :
    Fails IsAboutValue (responseOf scope o) := by
  unfold responseOf
  split
  · exact fails_pure _
  · split
    · exact fails_pure _
    · exact fails_pure _
    · exact fails_pure _
    · exact (fails_lower scope _).bind_pure _

theorem fails_documentationLine (v : Value) : Fails IsAboutValue (documentationLine v) := by
  unfold documentationLine
  split
  · exact fails_pure _
  · exact .ite (fails_pure _) fails_malformed
  · exact .ite fails_malformed (fails_pure _)

theorem fails_documentationOf (p : MethodPlan) : Fails IsAboutValue (documentationOf p) :=
  (fails_documentationLine _).bind fun _ => (fails_documentationLine _).bind_pure _

theorem fails_methodsAfter (scope : Scope) (width : Int) (security : List Value) (owner : String)
    (used : List String) (operations : List Operation) :
    Fails IsAboutValue (methodsAfter scope width security owner used operations) := by
  induction operations generalizing used with
  | nil => exact fails_pure _
  | cons o rest ih =>
    refine (fails_ofOption _).bind fun wanted => ?_
    have planned (name : String) : Fails IsAboutValue (planMethod scope width security name o) :=
      (fails_inputsOf scope o).bind fun _ => (fails_responseOf scope o).bind_pure _
    have others (name : String) := (planned name).bind fun plan =>
      (fails_documentationOf plan).bind fun documentation =>
        (ih (name :: (name ++ "Raw") :: used)).bind_pure fun others =>
          (plan, methodPair plan documentation) :: others
    exact .ite ((fails_warn _).bind fun _ => others _) (others _)

/-! ### Classes -/

theorem fails_classesFor (scope : Scope) (width : Int) (security : List Value)
    (modules : List (String × String)) (tagged : List (String × List Operation)) :
    Fails IsAboutValue (classesFor scope width security modules tagged) := by
  induction tagged with
  | nil => exact fails_pure _
  | cons t rest ih =>
    exact .bind ((fails_methodsAfter scope width security _ _ _).bind_pure _) fun c =>
      ih.bind_pure _

/-- **The classes of a document are built** unless a value cannot be used where it stands. -/
theorem fails_apiClasses (d : Document) (scope : Scope) (width : Int)
    (modules : List (String × String)) :
    Fails IsAboutValue (apiClasses d scope width modules) :=
  fails_classesFor scope width d.security modules _

end ClientGen.Client
