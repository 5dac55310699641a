import ClientGen.Client.ApiClass
import ClientGen.Proofs.Lists.Pointwise
import ClientGen.Proofs.Report.Matching
import ClientGen.Proofs.Text.Capital
import ClientGen.Proofs.Text.Lines

/-!
# The two methods for an operation

What the plan of a method keeps of its operation is said once (`planMethod_plans`), and a class has
its constructor and then a pair of methods for each operation, in the order of the operations
(`classFor_pairs`). From this:

* the convenience method takes the parameters of the raw one, hands them on in their order and
  unwraps the result (`forwards`);
* the raw method returns the wrapper that it declares, whatever the verb and the responses are,
  unless the verb is DELETE and no response stands for success (`classFor_coherent`).
-/

namespace ClientGen.Client

open Report (Yields bind_result_eq_ok_iff)
open Schema (Scope)

/-! ## Plans -/

/-- What the plan of a method keeps of its operation. -/
structure Plans (scope : Scope) (width : Int) (name : String) (o : Operation) (p : MethodPlan) :
    Prop where
  inputs : (inputsOf scope o).result = .ok p.inputs
  response : (responseOf scope o).result = .ok (p.request.responseKind, p.valueType)
  methodName : p.request.methodName = name
  method : p.request.method = Text.upper o.method
  path : p.request.path = o.path
  pathParameters : p.request.pathParameters = p.inputs.path.map (requestParameter width)
  queryParameters : p.request.queryParameters = p.inputs.query.map (requestParameter width)
  headerParameters : p.request.headerParameters = p.inputs.header.map (requestParameter width)
  bodyParameter : p.request.bodyParameter = p.inputs.body.map (requestParameter width)

theorem planMethod_plans (scope : Scope) (width : Int) (security : List Value) (name : String)
    (o : Operation) : Yields (Plans scope width name o) (planMethod scope width security name o) := by
  intro p ended
  obtain ⟨inputs, sorted, rest⟩ := bind_result_eq_ok_iff.1 ended
  obtain ⟨⟨kind, valueType⟩, wrapped, rest⟩ := bind_result_eq_ok_iff.1 rest
  cases rest
  exact ⟨sorted, wrapped, rfl, rfl, rfl, rfl, rfl, rfl, rfl⟩

/-- The wrapper that the responses of an operation ask for. A DELETE without a response of success
counts as one that returns a value. -/
def wrapperOf (o : Operation) : ResponseKind :=
  match successResponse o.responses with
  | none => .json
  | some response =>
    if Text.upper o.method = "DELETE" ∨ response.content.json? = none then .void else .json

theorem responseOf_kind (scope : Scope) (o : Operation) :
    Yields (fun r => r.1 = wrapperOf o) (responseOf scope o) := by
  unfold responseOf wrapperOf
  cases successResponse o.responses with
  | none => exact .pure rfl
  | some response =>
    by_cases deletes : Text.upper o.method = "DELETE"
    · simp only [deletes, beq_self_eq_true, true_or, if_true]
      exact .pure rfl
    · have other : (Text.upper o.method == "DELETE") = false := beq_eq_false_iff_ne.2 deletes
      simp only [other, deletes, false_or]
      cases response.content.json? with
      | none => exact .pure rfl
      | some schema =>
        cases schema with
        | null => exact .pure rfl
        | _ => exact Report.yields_bind fun t => .pure rfl

/-! ## Types of parameters and results -/

section Types

variable {scope : Scope} {P : TypeExpr → Prop}

theorem sortParameters_types (string : P .string) (lowered : ∀ v, Yields P (Schema.lower scope v))
    (o : Operation) (placeholders used : List String) (parameters : List Parameter) :
    Yields (fun r => ∀ i ∈ r.1, P i.2.type)
      (sortParameters scope o placeholders used parameters) := by
  induction parameters generalizing used with
  | nil => exact .pure nofun
  | cons p rest ih =>
    have typed : Yields P (typeOfParameter scope p) := by
      unfold typeOfParameter
      split
      · exact .pure string
      · exact lowered _
    refine typed.bind fun type holds => Report.yields_bind fun default => ?_
    cases placeOf? placeholders p with
    | none => exact Report.yields_bind fun shown => Report.yields_bind fun _ => ih used
    | some place =>
      exact (ih _).bind fun others sorted => .pure (List.forall_mem_cons.2 ⟨holds, sorted⟩)

theorem bodyInput_type (lowered : ∀ v, Yields P (Schema.lower scope v)) (o : Operation)
    (used : List String) : Yields (fun i => ∀ j ∈ i, P j.type) (bodyInput scope o used) := by
  unfold bodyInput
  cases o.body with
  | none => exact .pure nofun
  | some body =>
    dsimp only
    split
    · exact .pure nofun
    · exact .pure nofun
    · exact (lowered _).bind fun type holds => .pure (by
        intro j same
        rw [← Option.some.inj same]
        exact holds)

/-- What holds of `string` and of all types of schemas holds of the types of all parameters. -/
theorem inputsOf_types (string : P .string) (lowered : ∀ v, Yields P (Schema.lower scope v))
    (o : Operation) : Yields (fun inputs => ∀ i ∈ inputs.inOrder, P i.type) (inputsOf scope o) := by
  refine (sortParameters_types string lowered o _ _ _).bind fun r sorted =>
    (bodyInput_type lowered o _).bind fun body holds => .pure ?_
  have inPlace (place : Place) : ∀ i ∈ (r.1.filter (·.1 = place)).map (·.2), P i.type := by
    intro i mem
    obtain ⟨j, kept, rfl⟩ := List.mem_map.1 mem
    exact sorted j (List.mem_filter.1 kept).1
  intro i mem
  simp only [Inputs.inOrder, List.mem_append, Option.mem_toList] at mem
  rcases mem with ((mem | mem) | mem) | mem
  · exact inPlace _ i mem
  · exact inPlace _ i mem
  · exact inPlace _ i mem
  · exact holds i mem

/-- What holds of the types that need no schema and of all types of schemas holds of the types of
all results. -/
theorem responseOf_type (any : P .any) (void : P .void)
    (lowered : ∀ v, Yields P (Schema.lower scope v)) (o : Operation) :
    Yields (fun r => P r.2) (responseOf scope o) := by
  unfold responseOf
  split
  · exact .pure any
  · split
    · exact .pure void
    · exact .pure void
    · exact .pure any
    · exact (lowered _).bind fun type holds => .pure holds

end Types

/-! ## Classes as pairs of methods -/

/-- The raw method of a plan. -/
def rawMethod (p : MethodPlan) (documentation : Option String) : Method where
  signature := {
    name := p.request.rawName, parameters := methodParameters p.inputs
    result := some (rawResult p), isAsync := true }
  documentation
  body := { request := some p.request }

/-- The convenience method of a plan. -/
def convenienceMethod (p : MethodPlan) (documentation : Option String) : Method where
  signature := {
    name := p.request.methodName, parameters := methodParameters p.inputs
    result := some (convenienceResult p), isAsync := true }
  documentation
  body := { template := some BodyTemplate.convenience.label, request := some p.request }

theorem methodPair_eq (p : MethodPlan) (documentation : Option String) :
    methodPair p documentation = [rawMethod p documentation, convenienceMethod p documentation] :=
  rfl

/-- The methods for a first operation and for the others. The operation asks for a name and gets it,
or that name with a number, and the others go on with its names given. -/
theorem methodsAfter_cons {scope : Scope} {width : Int} {security : List Value} {owner : String}
    {used : List String} {o : Operation} {rest : List Operation}
    {ms : List (MethodPlan × List Method)}
    (ended : (methodsAfter scope width security owner used (o :: rest)).result = .ok ms) :
    ∃ wanted plan documentation others,
      methodName? o.operationId o.method o.path = some wanted ∧
      Plans scope width (distinctMethodName used wanted) o plan ∧
      (methodsAfter scope width security owner (distinctMethodName used wanted
        :: (distinctMethodName used wanted ++ "Raw") :: used) rest).result = .ok others ∧
      ms = (plan, methodPair plan documentation) :: others := by
  obtain ⟨wanted, found, ended⟩ := bind_result_eq_ok_iff.1 ended
  have ended := Report.result_of_ite ended
  obtain ⟨plan, planned, ended⟩ := bind_result_eq_ok_iff.1 ended
  obtain ⟨documentation, -, ended⟩ := bind_result_eq_ok_iff.1 ended
  obtain ⟨others, ended', ended⟩ := bind_result_eq_ok_iff.1 ended
  have asked : methodName? o.operationId o.method o.path = some wanted := by
    cases derived : methodName? o.operationId o.method o.path with
    | none =>
      rw [derived] at found
      cases found
    | some name =>
      rw [derived] at found
      cases found
      rfl
  cases ended
  exact ⟨wanted, plan, documentation, others, asked,
    planMethod_plans scope width security _ o plan planned, ended', rfl⟩

/-- A method is planned for each operation, in their order. -/
theorem methodsAfter_result {scope : Scope} {width : Int} {security : List Value} {owner : String}
    {used : List String} {operations : List Operation} {ms : List (MethodPlan × List Method)}
    (ended : (methodsAfter scope width security owner used operations).result = .ok ms) :
    List.Forall₂ (fun o m => (∃ name, Plans scope width name o m.1) ∧
      ∃ documentation, m.2 = methodPair m.1 documentation) operations ms := by
  induction operations generalizing used ms with
  | nil =>
    cases ended
    exact .nil
  | cons o _ ih =>
    obtain ⟨wanted, plan, documentation, others, -, planned, rest, rfl⟩ := methodsAfter_cons ended
    exact .cons ⟨⟨_, planned⟩, documentation, rfl⟩ (ih rest)

/-- Whether a class has, after its constructor, a pair of methods for each operation, in the order
of the operations, and each pair satisfies a condition. -/
def HasPairs (P : Operation → Method → Method → Prop) (operations : List Operation) (c : Class) :
    Prop :=
  ∃ pairs : List (Method × Method),
    c.methods = constructorMethod :: pairs.flatMap (fun p : Method × Method => [p.1, p.2]) ∧
      List.Forall₂ (fun o p => P o p.1 p.2) operations pairs

theorem HasPairs.mono {P Q : Operation → Method → Method → Prop} {operations : List Operation}
    {c : Class} (h : HasPairs P operations c) (imp : ∀ o raw conv, P o raw conv → Q o raw conv) :
    HasPairs Q operations c := by
  obtain ⟨pairs, methods, all⟩ := h
  exact ⟨pairs, methods, all.imp fun o (p : Method × Method) => imp o p.1 p.2⟩

/-- Whether two methods are made from a plan that satisfies a condition. -/
def FromPlan (P : Operation → MethodPlan → Prop) (o : Operation) (raw conv : Method) : Prop :=
  ∃ (p : MethodPlan) (documentation : Option String), P o p ∧ raw = rawMethod p documentation ∧
    conv = convenienceMethod p documentation

/-- Methods that are planned for operations are pairs from these plans. -/
theorem exists_pairs (P : Operation → MethodPlan → Prop) {operations : List Operation}
    {ms : List (MethodPlan × List Method)}
    (all : List.Forall₂ (fun o m => P o m.1 ∧ ∃ documentation, m.2 = methodPair m.1 documentation)
      operations ms) :
    ∃ pairs : List (Method × Method),
      ms.flatMap (·.2) = pairs.flatMap (fun p : Method × Method => [p.1, p.2]) ∧
      List.Forall₂ (fun o p => FromPlan P o p.1 p.2) operations pairs := by
  induction all with
  | nil => exact ⟨[], rfl, .nil⟩
  | @cons o m operations ms head tail ih =>
    obtain ⟨planned, documentation, pair⟩ := head
    obtain ⟨pairs, same, paired⟩ := ih
    refine ⟨(rawMethod m.1 documentation, convenienceMethod m.1 documentation) :: pairs, ?_,
      .cons ⟨m.1, documentation, planned, rfl, rfl⟩ paired⟩
    rw [List.flatMap_cons, List.flatMap_cons, pair, methodPair_eq, same]

/-- The parts of a class: its name, its imports and its pairs of methods. It imports the models that
the types of its methods refer to. -/
theorem classFor_result {scope : Scope} {width : Int} {security : List Value}
    {modules : List (String × String)} {tag : String} {operations : List Operation} {c : Class}
    (ended : (classFor scope width security modules tag operations).result = .ok c) :
    ∃ referenced, c.name = className tag ∧
      c.imports = runtimeImport :: modelImports modules referenced ∧
      HasPairs (FromPlan fun o p => (∃ name, Plans scope width name o p) ∧
        ∀ name ∈ referencedNames p, name ∈ referenced) operations c := by
  obtain ⟨ms, planned, ended⟩ := bind_result_eq_ok_iff.1 ended
  obtain rfl := Except.ok.inj ended
  refine ⟨_, rfl, rfl, ?_⟩
  obtain ⟨pairs, same, paired⟩ := exists_pairs
    (fun o p => (∃ name, Plans scope width name o p) ∧
      ∀ name ∈ referencedNames p, name ∈ ms.flatMap fun m => referencedNames m.1)
    ((forall₂_and_mem (methodsAfter_result planned)).imp fun o m ⟨⟨plan, pair⟩, _, listed⟩ =>
      ⟨⟨plan, fun name mem => List.mem_flatMap.2 ⟨m, listed, mem⟩⟩, pair⟩)
  exact ⟨pairs, congrArg _ same, paired⟩

/-- A class has a pair of methods for each operation, made from a plan for it. -/
theorem classFor_pairs {scope : Scope} {width : Int} {security : List Value}
    {modules : List (String × String)} {tag : String} {operations : List Operation} {c : Class}
    (ended : (classFor scope width security modules tag operations).result = .ok c) :
    HasPairs (FromPlan fun o p => ∃ name, Plans scope width name o p) operations c := by
  obtain ⟨_, -, -, pairs⟩ := classFor_result ended
  refine pairs.mono ?_
  rintro o raw conv ⟨p, documentation, ⟨planned, -⟩, rfl, rfl⟩
  exact ⟨p, documentation, planned, rfl, rfl⟩

/-! ## Bodies -/

/-- Whether the body of the raw method for a verb hands on the parameter that is the body. -/
def sendsBody (verb : String) : Bool := Text.upper verb != "GET" && Text.upper verb != "DELETE"

/-- How the body of the raw method for a verb wraps the response. -/
def sentKind (verb : String) (kind : ResponseKind) : ResponseKind :=
  if Text.upper verb = "DELETE" then .void else kind

@[simp] theorem sendsBody_upper (verb : String) : sendsBody (Text.upper verb) = sendsBody verb := by
  unfold sendsBody
  rw [Text.upper_upper]

@[simp] theorem sentKind_upper (verb : String) (kind : ResponseKind) :
    sentKind (Text.upper verb) kind = sentKind verb kind := by
  unfold sentKind
  rw [Text.upper_upper]

/-- The bodies for all verbs have the same four blocks. They differ in whether the parameter that is
the body is handed on, and in how the response is wrapped. -/
theorem blocks_ofVerb (announces : Bool) (r : Request) (verb : String) :
    BodyTemplate.blocksWith announces r (BodyTemplate.ofVerb verb) =
      [r.queryLines, r.headerLines (sendsBody verb && announces), r.callLines (sendsBody verb),
        [Request.returnLine (sentKind verb r.responseKind)]] := by
  unfold BodyTemplate.ofVerb sendsBody sentKind
  by_cases get : Text.upper verb = "GET"
  · simp [get, BodyTemplate.blocksWith]
  by_cases delete : Text.upper verb = "DELETE"
  · simp [delete, BodyTemplate.blocksWith]
  by_cases send : (Text.upper verb == "POST" || Text.upper verb == "PUT"
      || Text.upper verb == "PATCH") = true
  · simp only [beq_eq_false_iff_ne.2 get, send, if_pos, Bool.false_eq_true, if_false, bne,
      beq_eq_false_iff_ne.2 delete, if_neg delete]
    rfl
  · simp only [beq_eq_false_iff_ne.2 get, send, Bool.false_eq_true, if_false, bne,
      beq_eq_false_iff_ne.2 delete, if_neg delete]
    rfl

/-- The lines that collect the header parameters, with the type of a body that is sent. -/
def Request.sentHeaders (r : Request) : List String :=
  r.headerLines (sendsBody r.method && r.bodyParameter.isSome)

/-- The lines that send the request, with the body if the verb has one. -/
def Request.sentCall (r : Request) : List String := r.callLines (sendsBody r.method)

/-- The line that wraps the response. -/
def Request.lastLine (r : Request) : String := returnLine (sentKind r.method r.responseKind)

/-- The lines of the body of a raw method. -/
def bodyLines (r : Request) : List String :=
  r.queryLines ++ "" :: (r.sentHeaders ++ "" :: (r.sentCall ++ ["", r.lastLine]))

theorem text_rawMethod (p : MethodPlan) (documentation : Option String) :
    (rawMethod p documentation).body.text = .ok (Text.unlines (bodyLines p.request)) := by
  have filled : ∀ block ∈ BodyTemplate.blocksWith p.request.bodyParameter.isSome p.request
      (BodyTemplate.ofVerb p.request.method), block ≠ [] := by
    rw [blocks_ofVerb]
    simp [Request.queryLines, Request.headerLines, Request.callLines]
  have lines : Text.apart (BodyTemplate.blocksWith p.request.bodyParameter.isSome p.request
      (BodyTemplate.ofVerb p.request.method)) = bodyLines p.request := by
    rw [blocks_ofVerb]
    rfl
  rw [← lines, ← Text.intercalate_unlines filled]
  rfl

theorem text_convenienceMethod (p : MethodPlan) (documentation : Option String) :
    (convenienceMethod p documentation).body.text =
      .ok (BodyTemplate.callText p.request.rawName p.request.callArguments) := by
  have named : BodyTemplate.ofName? BodyTemplate.convenience.label = some .convenience := by
    decide +kernel
  simp only [convenienceMethod, Body.text, named, BodyTemplate.text, BodyTemplate.textWith,
    BodyTemplate.blocksWith, List.map_cons, List.map_nil, Text.unlines,
    String.intercalate_singleton]

/-! ## Coherence -/

/-- Whether the last line of the body of a method is the given one. -/
def EndsIn (m : Method) (line : String) : Prop :=
  ∃ text, m.body.text = .ok text ∧ (Text.lines text).getLast? = some line

/-- Whether a convenience method takes the parameters of a raw one, hands them on in their order and
returns what the raw one wraps. -/
structure Forwards (raw conv : Method) : Prop where
  parameters : conv.signature.parameters = raw.signature.parameters
  call : conv.body.text =
    .ok (BodyTemplate.callText raw.signature.name (raw.signature.parameters.map (·.name)))
  results :
    (raw.signature.result = some (promiseOf (.named "VoidApiResponse")) ∧
      conv.signature.result = some (promiseOf .void)) ∨
    ∃ t, raw.signature.result = some (promiseOf (.ref "JSONApiResponse" [t])) ∧
      conv.signature.result = some (promiseOf t)

/-- Whether the body of a raw method returns the wrapper that its signature declares. -/
structure ReturnsAsDeclared (raw : Method) : Prop where
  void : EndsIn raw "return new VoidApiResponse(response);" ↔
    raw.signature.result = some (promiseOf (.named "VoidApiResponse"))
  json : EndsIn raw "return new JSONApiResponse(response);" ↔
    ∃ t, raw.signature.result = some (promiseOf (.ref "JSONApiResponse" [t]))

theorem endsIn_rawMethod_iff (p : MethodPlan) (documentation : Option String) (line : String) :
    EndsIn (rawMethod p documentation) line ↔
      line = p.request.lastLine := by
  have noBreak (kind : ResponseKind) : '\n' ∉ (Request.returnLine kind).toList := by
    cases kind <;> decide
  have last : (Text.lines (Text.unlines (bodyLines p.request))).getLast? =
      some p.request.lastLine := by
    have split : bodyLines p.request = (p.request.queryLines
        ++ "" :: (p.request.sentHeaders ++ "" :: (p.request.sentCall ++ [""])))
        ++ [p.request.lastLine] := by
      simp [bodyLines]
    rw [split]
    exact Text.getLast?_lines_unlines _ (noBreak _)
  unfold EndsIn
  rw [text_rawMethod]
  constructor
  · rintro ⟨text, same, ended⟩
    obtain rfl := Except.ok.inj same
    rw [last] at ended
    exact (Option.some.inj ended).symm
  · rintro rfl
    exact ⟨_, rfl, last⟩

theorem rawResult_eq_void_iff (p : MethodPlan) :
    some (rawResult p) = some (promiseOf (.named "VoidApiResponse")) ↔
      p.request.responseKind = .void := by
  unfold rawResult
  cases p.request.responseKind <;> simp [promiseOf, TypeExpr.named]

theorem rawResult_eq_json_iff (p : MethodPlan) :
    (∃ t, some (rawResult p) = some (promiseOf (.ref "JSONApiResponse" [t]))) ↔
      p.request.responseKind = .json := by
  unfold rawResult
  cases p.request.responseKind <;> simp [promiseOf, TypeExpr.named]

theorem eq_returnLine_iff (kind : ResponseKind) :
    ("return new VoidApiResponse(response);" = Request.returnLine kind ↔ kind = .void) ∧
      ("return new JSONApiResponse(response);" = Request.returnLine kind ↔ kind = .json) := by
  cases kind <;> decide

/-- What a raw method returns is what it declares exactly if the verb does not change how the
response is wrapped. -/
theorem returnsAsDeclared_iff (p : MethodPlan) (documentation : Option String) :
    ReturnsAsDeclared (rawMethod p documentation) ↔
      sentKind p.request.method p.request.responseKind = p.request.responseKind := by
  have declared : (rawMethod p documentation).signature.result = some (rawResult p) := rfl
  have void := endsIn_rawMethod_iff p documentation "return new VoidApiResponse(response);"
  have json := endsIn_rawMethod_iff p documentation "return new JSONApiResponse(response);"
  rw [Request.lastLine, (eq_returnLine_iff _).1] at void
  rw [Request.lastLine, (eq_returnLine_iff _).2] at json
  constructor
  · rintro ⟨returnsVoid, -⟩
    rw [void, declared, rawResult_eq_void_iff] at returnsVoid
    cases kind : p.request.responseKind with
    | void => exact kind ▸ returnsVoid.2 kind
    | json =>
      cases sent : sentKind p.request.method p.request.responseKind with
      | void => exact absurd (returnsVoid.1 sent) (by simp [kind])
      | json => exact kind ▸ sent
  · intro same
    constructor
    · rw [void, declared, rawResult_eq_void_iff, same]
    · rw [json, declared, rawResult_eq_json_iff, same]

/-- The arguments that a convenience method hands on are its parameters. -/
theorem forwards (p : MethodPlan) (documentation : Option String) {scope : Scope} {width : Int}
    {name : String} {o : Operation} (planned : Plans scope width name o p) :
    Forwards (rawMethod p documentation) (convenienceMethod p documentation) := by
  refine ⟨rfl, ?_, ?_⟩
  · have arguments : p.request.callArguments =
        (rawMethod p documentation).signature.parameters.map (·.name) := by
      simp [Request.callArguments, rawMethod, methodParameters, Inputs.inOrder,
        planned.pathParameters, planned.queryParameters, planned.headerParameters,
        planned.bodyParameter, requestParameter, Function.comp_def, Option.toList_map]
    rw [text_convenienceMethod, arguments]
    rfl
  · cases kind : p.request.responseKind with
    | void => exact .inl ⟨by simp [rawMethod, rawResult, kind],
        by simp [convenienceMethod, convenienceResult, kind]⟩
    | json => exact .inr ⟨p.valueType, by simp [rawMethod, rawResult, kind],
        by simp [convenienceMethod, convenienceResult, kind]⟩

/-- There is no response of success exactly if none of the responses stands for success. -/
theorem successResponse_eq_none_iff (responses : List (String × Response)) :
    successResponse responses = none ↔ ∀ r ∈ responses, r.2.isSuccess = false := by
  unfold successResponse
  rw [List.head?_eq_none_iff, ← List.length_eq_zero_iff, List.length_mergeSort,
    List.length_eq_zero_iff, List.filter_eq_nil_iff, List.forall_mem_map]
  simp only [Bool.not_eq_true]

/-- The verb changes how the response is wrapped only for DELETE without a response of success. -/
theorem sentKind_wrapperOf_iff (o : Operation) :
    sentKind o.method (wrapperOf o) = wrapperOf o ↔
      ¬ (Text.upper o.method = "DELETE" ∧ ∀ r ∈ o.responses, r.2.isSuccess = false) := by
  rw [← successResponse_eq_none_iff]
  unfold sentKind wrapperOf
  by_cases deletes : Text.upper o.method = "DELETE"
  · cases successResponse o.responses with
    | none => simp [deletes]
    | some response => simp [deletes]
  · simp [deletes]

/-- **The methods of a class are coherent.** The class has a pair of methods for each operation. The
convenience method takes the parameters of the raw one, hands on their names in this order, and
returns a promise of what the raw one wraps. The raw one returns the wrapper that it declares, unless
the verb is DELETE and no response stands for success. -/
theorem classFor_coherent {scope : Scope} {width : Int} {security : List Value}
    {modules : List (String × String)} {tag : String} {operations : List Operation} {c : Class}
    (ended : (classFor scope width security modules tag operations).result = .ok c) :
    HasPairs (fun o raw conv => Forwards raw conv ∧ (ReturnsAsDeclared raw ↔
      ¬ (Text.upper o.method = "DELETE" ∧ ∀ r ∈ o.responses, r.2.isSuccess = false)))
      operations c := by
  refine (classFor_pairs ended).mono ?_
  rintro o raw conv ⟨p, documentation, ⟨name, planned⟩, rfl, rfl⟩
  have kind : p.request.responseKind = wrapperOf o := responseOf_kind scope o _ planned.response
  refine ⟨forwards p documentation planned, ?_⟩
  rw [returnsAsDeclared_iff, planned.method, sentKind_upper, kind]
  exact sentKind_wrapperOf_iff o

/-- An operation that deletes and tells nothing of its responses. -/
def deletion : Operation where
  method := "DELETE"
  path := "/pets"
  operationId := .str "dropPets"
  tags := ["pets"]
  summary := .null
  description := .null
  parameters := []
  body := none
  responses := []
  isDeprecated := false
  security := none

theorem classFor_coherent_of_deletion :
    ∃ c, (classFor ⟨[], 64⟩ 80 [] [] "pets"
        [deletion, { deletion with responses := [("204", ⟨"204", .null, []⟩)] }]).result = .ok c ∧
      HasPairs (fun o raw conv => Forwards raw conv ∧ (ReturnsAsDeclared raw ↔
        ¬ (Text.upper o.method = "DELETE" ∧ ∀ r ∈ o.responses, r.2.isSuccess = false)))
        [deletion, { deletion with responses := [("204", ⟨"204", .null, []⟩)] }] c := by
  have succeeds : (classFor ⟨[], 64⟩ 80 [] [] "pets"
      [deletion, { deletion with responses := [("204", ⟨"204", .null, []⟩)] }]).result.isOk := by
    decide +kernel
  obtain ⟨c, ended⟩ := exists_eq_ok succeeds
  exact ⟨c, ended, classFor_coherent ended⟩

/-- Without a response of success, DELETE is declared to wrap a value but wraps none. -/
theorem deletion_returns_otherwise :
    ∃ raw conv,
      (classFor ⟨[], 64⟩ 80 [] [] "pets" [deletion]).result.map (·.methods)
        = .ok [constructorMethod, raw, conv] ∧
      raw.signature.result = some (promiseOf (.ref "JSONApiResponse" [.any])) ∧
      conv.signature.result = some (promiseOf .any) ∧
      EndsIn raw "return new VoidApiResponse(response);" ∧ ¬ ReturnsAsDeclared raw := by
  have succeeds : (classFor ⟨[], 64⟩ 80 [] [] "pets" [deletion]).result.isOk := by
    decide +kernel
  obtain ⟨c, ended⟩ := exists_eq_ok succeeds
  rw [ended]
  obtain ⟨pairs, methods, all⟩ := classFor_pairs ended
  cases all with
  | @cons _ pair _ _ head tail =>
    cases tail
    obtain ⟨raw, conv⟩ := pair
    obtain ⟨p, documentation, ⟨name, planned⟩, rfl, rfl⟩ := head
    have response : (.ok (.json, .any) : Except Failure (ResponseKind × TypeExpr))
        = .ok (p.request.responseKind, p.valueType) := by
      rw [← planned.response]
      decide +kernel
    obtain ⟨kind, type⟩ := Prod.mk.inj (Except.ok.inj response)
    have deletes : p.request.method = "DELETE" := by
      rw [planned.method]
      decide +kernel
    have sent : sentKind p.request.method p.request.responseKind = .void := by
      rw [deletes]
      exact if_pos (by decide +kernel)
    refine ⟨rawMethod p documentation, convenienceMethod p documentation, ?_, ?_, ?_, ?_, ?_⟩
    · exact congrArg Except.ok methods
    · simp only [rawMethod, rawResult, ← kind, ← type]
    · simp only [convenienceMethod, convenienceResult, ← kind, ← type]
    · rw [endsIn_rawMethod_iff, Request.lastLine, sent]
      rfl
    · rw [returnsAsDeclared_iff, sent, ← kind]
      decide

end ClientGen.Client
