import ClientGen.Client.ApiClass
import ClientGen.Schema.Declare

/-!
# Scopes that look alike

What a schema is lowered to, and how it is declared, depends on the components in view through what
stands under their names, and through their number alone: in scopes that are alike a schema has one
type (`Scope.Alike.lower_eq`) and one declaration (`Scope.Alike.declare_eq`). So the classes for the
operations of a document are the same in scopes that are alike (`Scope.Alike.classesFor_eq`).
-/

namespace ClientGen.Schema

/-- Whether two scopes have the same components under the same names, in any order. -/
structure Scope.Alike (scope scope' : Scope) : Prop where
  component : ∀ name, component? scope.components name = component? scope'.components name
  length : scope.components.length = scope'.components.length
  maxDepth : scope.maxDepth = scope'.maxDepth

namespace Scope.Alike

variable {scope scope' : Scope} (alike : scope.Alike scope')

include alike

/-! ### Types -/

theorem lowerReference_eq (ref : String) : lowerReference scope ref = lowerReference scope' ref := by
  simp only [lowerReference, alike.component]

theorem fallback_eq (es : Entries) : fallback scope es = fallback scope' es := by
  simp only [fallback, alike.component]

theorem lowerEntries_eq {sub sub' : Value → Lowering TypeExpr} (nested : sub = sub') (es : Entries) :
    lowerEntries sub scope es = lowerEntries sub' scope' es := by
  subst nested
  simp only [lowerEntries, alike.lowerReference_eq]

theorem lowerWithin_eq (budget : Nat) : lowerWithin scope budget = lowerWithin scope' budget := by
  induction budget with
  | zero =>
    funext v
    cases v with
    | map es => rw [lowerWithin, lowerWithin, alike.maxDepth, alike.fallback_eq]
    | bool b => cases b <;> rfl
    | _ => rfl
  | succ budget ih =>
    funext v
    cases v with
    | map es => rw [lowerWithin, lowerWithin, alike.lowerEntries_eq ih]
    | bool b => cases b <;> rfl
    | _ => rfl

/-- **A schema has one type** in scopes that are alike. -/
theorem lower_eq : lower scope = lower scope' := by
  funext v
  rw [lower, lower, budget, budget, alike.maxDepth, alike.lowerWithin_eq]

/-! ### Declarations -/

theorem declareOwn_eq (typeName : String) (es : Entries) :
    declareOwn scope typeName es = declareOwn scope' typeName es := by
  simp only [declareOwn, declareInterface, interfaceProperties, interfaceIndex, alike.lower_eq]

theorem declareStep_eq (typeName : String)
    {follow follow' : Option (Stack → Option String → Value → Lowering Declaration)}
    (followed : follow = follow') :
    declareStep scope typeName follow = declareStep scope' typeName follow' := by
  subst followed
  funext stack firstHop v
  cases v with
  | map es => simp only [declareStep, alike.declareOwn_eq, alike.component]
  | _ => simp only [declareStep, alike.lower_eq]

theorem declareWithin_eq (typeName : String) (links : Nat) :
    declareWithin scope typeName links = declareWithin scope' typeName links := by
  induction links with
  | zero => exact alike.declareStep_eq typeName rfl
  | succ links ih => exact alike.declareStep_eq typeName (congrArg some ih)

/-- **A schema has one declaration** in scopes that are alike. -/
theorem declare_eq : declare scope = declare scope' := by
  funext stack name schema
  rw [declare, declare, alike.length, alike.declareWithin_eq]

end Scope.Alike

end ClientGen.Schema

namespace ClientGen.Schema.Scope.Alike

open Client

variable {scope scope' : Scope} (alike : scope.Alike scope')

include alike

/-! ### Classes -/

theorem sortParameters_eq (o : Operation) (placeholders used : List String)
    (parameters : List Parameter) : sortParameters scope o placeholders used parameters =
      sortParameters scope' o placeholders used parameters := by
  induction parameters generalizing used with
  | nil => rfl
  | cons p rest ih => simp only [sortParameters, typeOfParameter, alike.lower_eq, ih]

theorem inputsOf_eq (o : Operation) : inputsOf scope o = inputsOf scope' o := by
  simp only [inputsOf, bodyInput, alike.sortParameters_eq, alike.lower_eq]

theorem planMethod_eq (width : Int) (security : List Value) (name : String) (o : Operation) :
    planMethod scope width security name o = planMethod scope' width security name o := by
  simp only [planMethod, responseOf, alike.inputsOf_eq, alike.lower_eq]

theorem methodsAfter_eq (width : Int) (security : List Value) (owner : String)
    (used : List String) (operations : List Operation) :
    methodsAfter scope width security owner used operations =
      methodsAfter scope' width security owner used operations := by
  induction operations generalizing used with
  | nil => rfl
  | cons o rest ih => simp only [methodsAfter, alike.planMethod_eq, ih]

/-- **The classes for tags are the same** in scopes that are alike. -/
theorem classesFor_eq (width : Int) (security : List Value) (modules : List (String × String))
    (tagged : List (String × List Operation)) :
    classesFor scope width security modules tagged =
      classesFor scope' width security modules tagged := by
  induction tagged with
  | nil => rfl
  | cons t rest ih =>
    simp only [classesFor, classFor, alike.methodsAfter_eq, ih]

end ClientGen.Schema.Scope.Alike
