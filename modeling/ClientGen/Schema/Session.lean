import ClientGen.Schema.Mapper

/-!
# Sessions

A session takes one step after another on the schemas of one document. Between steps it keeps the
context that they share and the discriminating properties found so far.
-/

namespace ClientGen.Schema

/-- What is kept between steps. -/
structure Session extends Context where
  scope : Scope
  discriminators : List (String × String) := []

namespace Session

/-! ## Steps -/

/-- A step: a question, or a change of the names being resolved. -/
inductive Step where
  | declare (name : String) (schema : Value)
  | lower (schema : Value)
  | push (name : String)
  | pop (name : String)
  | lookup (name : String)

/-- The answer to a step. -/
inductive Answer where
  | declaration (r : Lowering Declaration)
  | type (r : Lowering TypeExpr)
  | lookedUp (isFound isResolving : Bool)
  | changed

/-- What an answer tells along the way. -/
def Answer.notes : Answer → List Note
  | declaration r => r.notes
  | type r => r.notes
  | lookedUp _ _ => []
  | changed => []

/-- The answer to a step in a context, and the context that the step leaves. -/
def take (scope : Scope) (c : Context) : Step → Answer × Context
  | .declare name schema => (Mapper.declare scope name schema c).map Answer.declaration id
  | .lower schema => (Mapper.map scope schema c).map Answer.type id
  | .push name => (.changed, c.push name)
  | .pop name => (.changed, c.pop name)
  | .lookup name =>
    (.lookedUp (component? scope.components name).isSome (c.isResolving name), c)

/-- The answer to a step. -/
def answer (s : Session) (step : Step) : Answer := (take s.scope s.toContext step).1

/-- The session after a step. -/
def after (s : Session) (step : Step) : Session where
  toContext := (take s.scope s.toContext step).2
  scope := s.scope
  discriminators := discriminatorsAfter s.discriminators (s.answer step).notes

/-- The answers to steps taken in turn, each with the session after it. -/
def run : Session → List Step → List (Answer × Session)
  | _, [] => []
  | s, step :: rest => (s.answer step, s.after step) :: run (s.after step) rest

end Session

end ClientGen.Schema
