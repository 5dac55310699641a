import ClientGen.Client.Request
import ClientGen.Decl.Layout
import ClientGen.Layout.Margin
import ClientGen.Report.Failure

/-!
# Classes as source text

A class file holds the notice, the imports, and the class with its properties and methods.
-/

namespace ClientGen.Client

/-- The body of a method: a named template, or else the one for the verb of the request. -/
structure Body where
  template : Option String := none
  request : Option Request := none

/-- A method with its body. -/
structure Method where
  signature : Signature
  documentation : Option String := none
  body : Body := {}

/-- A class. -/
structure Class where
  name : String
  base : Option String := none
  interfaces : List String := []
  generics : List String := []
  properties : List ClassProperty := []
  methods : List Method := []
  imports : List Import := []
  documentation : Option String := none

/-- The head of a class. -/
def Class.head (c : Class) : String :=
  "export class " ++ c.name ++ genericsText c.generics
    ++ (match nonempty c.base with
      | some base => " extends " ++ base
      | none => "")
    ++ if c.interfaces.isEmpty then "" else " implements " ++ ", ".intercalate c.interfaces
where
  /-- Text, unless it is missing or empty. -/
  nonempty (s : Option String) : Option String := s.filter (!·.isEmpty)

/-- The file of a template for bodies. -/
def templateFile (name : String) : String := "api/method_bodies/" ++ name ++ ".j2"

/-- The first part of a request that a template looks at. -/
def BodyTemplate.firstField : BodyTemplate → String
  | .convenience => "raw_method_name"
  | _ => "query_params"

/-- The text of a body. A body without a template needs a request. -/
def Body.text (b : Body) : Except Failure String :=
  match b.template, b.request with
  | none, none => .error .malformed
  | none, some r => .ok ((BodyTemplate.ofVerb r.method).text r)
  | some name, request =>
    match BodyTemplate.ofName? name, request with
    | none, _ =>
      .error (.emission (some (templateFile name)) (.templateMissing (templateFile name)))
    | some t, some r => .ok (t.text r)
    | some t, none =>
      if t.needsRequest then
        .error (.emission (some (templateFile name))
          (.renderingFailed s!"'None' has no attribute '{t.firstField}'"))
      else .ok (t.text { methodName := "", method := "", path := "" })

/-- Documentation as the text of a comment line, if there is any. -/
def commentText (documentation : Option String) (indent : Nat) : String :=
  match documentation with
  | none => ""
  | some d => if d.isEmpty then "" else Source.blockComment d indent ++ "\n"

/-- The text of a method. -/
def Method.text (m : Method) (width : Int) : Except Failure String := do
  let body ← m.body.text
  return commentText m.documentation 2
    ++ Source.indentLines (m.signature.text width) 2 true ++ " \x7b\n"
    ++ Source.indentLines body 4 true ++ "\n  \x7d\n"

/-- The text of a class file. -/
def Class.text (c : Class) (margin : Margin) : Except Failure String := do
  let inner := (margin.indented 1).available
  let methods ← c.methods.mapM (·.text inner)
  let imports := c.imports.map fun i => i.text margin.available ++ "\n"
  let properties := c.properties.map fun p => Source.indentLines (p.text inner) 2 true ++ "\n"
  let gap := if properties.isEmpty || methods.isEmpty then "" else "\n"
  return Source.shortNotice ++ "\n\n" ++ String.join imports ++ "\n"
    ++ commentText c.documentation 0 ++ c.head ++ " \x7b\n"
    ++ String.join properties ++ gap ++ "\n".intercalate methods ++ "\x7d\n"

end ClientGen.Client
