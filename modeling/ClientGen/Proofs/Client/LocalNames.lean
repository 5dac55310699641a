import ClientGen.Proofs.Client.Transmission
import ClientGen.Proofs.Name.Camel
import ClientGen.Proofs.Name.Distinct

/-!
# Names that a method knows

A raw method knows its parameters, the overrides that end them, and what its body declares
(`declaredNames_bodyLines`). Identifiers are distinct from each other only: a name that ends in no
digit becomes one exactly if some parameter asks for it (`inputsOf_identifiers`). So a parameter
meets the overrides, or something that the body declares, exactly if its wire name has the same words
(`classFor_localNames`), and wire names may have them (`identifiers_meet_declarations`).
-/

namespace ClientGen.Client

open Report (Yields bind_result_eq_ok_iff)
open Schema (Scope)

/-! ## Identifiers of parameters -/

/-- Each parameter that is kept takes one identifier more. -/
theorem sortParameters_used (scope : Scope) (o : Operation) (placeholders used : List String)
    (parameters : List Parameter) :
    Yields (fun r => r.2 = (r.1.map (·.2.identifier)).reverse ++ used)
      (sortParameters scope o placeholders used parameters) := by
  induction parameters generalizing used with
  | nil => exact .pure rfl
  | cons p rest ih =>
    refine Report.yields_bind fun type => Report.yields_bind fun default => ?_
    cases placeOf? placeholders p with
    | none => exact Report.yields_bind fun shown => Report.yields_bind fun _ => ih used
    | some place =>
      refine (ih _).bind fun others taken => .pure ?_
      rw [taken, List.map_cons, List.reverse_cons, List.append_assoc, List.singleton_append]

/-- A name that ends in no digit is taken in the end if it was before or if a parameter that is kept
asks for it. -/
theorem mem_used_sortParameters (scope : Scope) (o : Operation) (placeholders used : List String)
    (parameters : List Parameter) {name : String} (noDigit : Name.endsInDigit name = false) :
    Yields (fun r => name ∈ r.2 ↔ name ∈ used ∨
        ∃ p ∈ parameters, (placeOf? placeholders p).isSome ∧ Name.valueName p.name = name)
      (sortParameters scope o placeholders used parameters) := by
  induction parameters generalizing used with
  | nil => exact .pure (by simp)
  | cons p rest ih =>
    refine Report.yields_bind fun type => Report.yields_bind fun default => ?_
    cases found : placeOf? placeholders p with
    | none =>
      refine Report.yields_bind fun shown => Report.yields_bind fun _ => ?_
      simpa only [List.exists_mem_cons_iff, found, Option.isSome_none, Bool.false_eq_true,
        false_and, false_or] using ih used
    | some place =>
      refine (ih _).bind fun others taken => .pure (taken.trans ?_)
      rw [List.mem_cons, eq_comm, or_comm (a := _ = name),
        Name.mem_or_distinctFrom_iff noDigit used (Name.valueName p.name), or_assoc]
      simp only [List.exists_mem_cons_iff, found, Option.isSome_some, true_and]

/-- The body takes the name of bodies, or a numbered one. -/
theorem bodyInput_identifier (scope : Scope) (o : Operation) (used : List String) :
    Yields (fun body => ∀ i ∈ body, i.identifier = Name.distinctFrom used bodyName)
      (bodyInput scope o used) := by
  have named : Name.valueName bodyName = bodyName := by decide +kernel
  unfold bodyInput
  cases o.body with
  | none => exact .pure nofun
  | some body =>
    dsimp only
    split
    · exact .pure nofun
    · exact .pure nofun
    · refine Report.yields_bind fun type => .pure ?_
      intro i same
      rw [← Option.some.inj same, named]

/-- Inputs by where they travel are all inputs. -/
theorem perm_places (sorted : List (Place × MethodInput)) :
    ((sorted.filter (·.1 = .path)).map (·.2) ++ (sorted.filter (·.1 = .query)).map (·.2)
      ++ (sorted.filter (·.1 = .header)).map (·.2)).Perm (sorted.map (·.2)) := by
  induction sorted with
  | nil => exact .nil
  | cons i rest ih =>
    obtain ⟨place, input⟩ := i
    rw [List.map_cons]
    cases place with
    | path => exact ih.cons input
    | query =>
      refine .trans ?_ (ih.cons input)
      exact List.perm_middle.append_right _
    | header => exact .trans List.perm_middle (ih.cons input)

/-- The inputs of a method are the parameters that are sorted, and then the body. The identifier of
the body is chosen last. -/
theorem inputsOf_perm (scope : Scope) (o : Operation) :
    Yields (fun inputs => ∃ sorted used,
        (sortParameters scope o (Source.placeholderNames o.path) [] o.parameters).result =
          .ok (sorted, used) ∧
        used = (sorted.map (·.2.identifier)).reverse ∧
        inputs.inOrder.Perm (sorted.map (·.2) ++ inputs.body.toList) ∧
        ∀ i ∈ inputs.body, i.identifier = Name.distinctFrom used bodyName)
      (inputsOf scope o) := by
  intro inputs ended
  obtain ⟨⟨sorted, used⟩, sorting, ended⟩ := bind_result_eq_ok_iff.1 ended
  obtain ⟨body, found, ended⟩ := bind_result_eq_ok_iff.1 ended
  cases ended
  have taken : used = (sorted.map (·.2.identifier)).reverse :=
    (sortParameters_used scope o _ [] o.parameters _ sorting).trans (List.append_nil _)
  exact ⟨sorted, used, sorting, taken, (perm_places sorted).append_right _,
    bodyInput_identifier scope o used _ found⟩

/-- **A name that ends in no digit is the identifier of a parameter exactly if one asks for it**, or
if it is the name of bodies and there is one. -/
theorem inputsOf_identifiers (scope : Scope) (o : Operation) {name : String}
    (noDigit : Name.endsInDigit name = false) :
    Yields (fun inputs => name ∈ inputs.inOrder.map (·.identifier) ↔
        (∃ p ∈ o.parameters, (placeOf? (Source.placeholderNames o.path) p).isSome ∧
          Name.valueName p.name = name) ∨ (inputs.body.isSome ∧ bodyName = name))
      (inputsOf scope o) := by
  intro inputs ended
  obtain ⟨sorted, used, sorting, taken, perm, named⟩ := inputsOf_perm scope o inputs ended
  have asked : name ∈ used ↔ ∃ p ∈ o.parameters,
      (placeOf? (Source.placeholderNames o.path) p).isSome ∧ Name.valueName p.name = name := by
    simpa using mem_used_sortParameters scope o _ [] o.parameters noDigit _ sorting
  have listed : name ∈ (sorted.map (·.2)).map (·.identifier) ↔ name ∈ used := by
    rw [taken, List.mem_reverse, List.map_map]
    rfl
  rw [(perm.map _).mem_iff, List.map_append, List.mem_append, listed]
  cases body : inputs.body with
  | none => simpa using asked
  | some i =>
    have last := Name.mem_or_distinctFrom_iff noDigit used bodyName
    rw [← named i body] at last
    rw [Option.toList_some, List.map_singleton, List.mem_singleton, eq_comm, last, asked]
    simp

/-! ## Declarations in bodies -/

/-- The name that a line declares, if it begins with a declaration. Lines of inner blocks are
indented and declare nothing for the others. -/
def declaredIn (cs : List Char) : Option String :=
  (Text.dropPrefix? "const ".toList cs).map fun rest =>
    String.ofList (rest.takeWhile Name.isIdentifierRest)

theorem declaredIn_eq_none {cs : List Char} (other : cs.head? ≠ some 'c') :
    declaredIn cs = none := by
  cases cs with
  | nil => rfl
  | cons c rest =>
    have differs : ('c' == c) = false := beq_eq_false_iff_ne.2 fun same => other (same ▸ rfl)
    have begins : "const ".toList = 'c' :: "onst ".toList := by decide
    rw [declaredIn, begins, Text.dropPrefix?, differs]
    rfl

/-- The names that lines declare. -/
def declaredNames (ls : List String) : List String := ls.filterMap fun line => declaredIn line.toList

theorem declaredNames_append (ls ls' : List String) :
    declaredNames (ls ++ ls') = declaredNames ls ++ declaredNames ls' := List.filterMap_append

theorem declaredNames_eq_nil {ls : List String} (other : ∀ line ∈ ls, line.toList.head? ≠ some 'c') :
    declaredNames ls = [] :=
  List.filterMap_eq_nil_iff.2 fun line mem => declaredIn_eq_none (other line mem)

theorem declaredNames_cons {line name : String} (here : declaredIn line.toList = some name)
    (ls : List String) : declaredNames (line :: ls) = name :: declaredNames ls :=
  List.filterMap_cons_some here

/-- What the body of every raw method declares. -/
def bodyNames : List String := ["queryParameters", "headerParameters", "response"]

theorem declaredNames_queryLines (r : Request) :
    declaredNames r.queryLines = ["queryParameters"] := by
  have store (wireName identifier : String) :
      ∀ line ∈ queryStore wireName identifier, line.toList.head? ≠ some 'c' := by
    simp [queryStore]
  have start : declaredIn queryStart.toList = some "queryParameters" := by decide +kernel
  rw [queryLines_eq, declaredNames_cons start, declaredNames_eq_nil]
  intro line mem
  obtain ⟨p, -, mem⟩ := List.mem_flatMap.1 mem
  exact store p.wireName p.name line mem

theorem declaredNames_headerLines (r : Request) (jsonBody : Bool) :
    declaredNames (r.headerLines jsonBody) = ["headerParameters"] := by
  have store (wireName identifier : String) :
      ∀ line ∈ headerStore wireName identifier, line.toList.head? ≠ some 'c' := by
    simp [headerStore]
  have start : declaredNames [headerStart] = ["headerParameters"] := by decide +kernel
  have type : declaredNames (if jsonBody then
      ["headerParameters['Content-Type'] = 'application/json';"] else []) = [] := by
    cases jsonBody <;> exact declaredNames_eq_nil (by simp)
  have stores : declaredNames
      (r.headerParameters.flatMap fun p => headerStore p.wireName p.name) = [] := by
    refine declaredNames_eq_nil fun line mem => ?_
    obtain ⟨p, -, mem⟩ := List.mem_flatMap.1 mem
    exact store p.wireName p.name line mem
  -- the token is declared in a block of its own
  have auth : declaredNames (if r.hasAuth then Request.authLines else []) = [] := by
    cases r.hasAuth <;> exact declaredNames_eq_nil (by simp [Request.authLines])
  change declaredNames ([headerStart] ++ _ ++ (r.headerParameters.flatMap fun p =>
    headerStore p.wireName p.name) ++ _) = _
  rw [declaredNames_append, declaredNames_append, declaredNames_append, start, type, stores, auth]
  rfl

theorem declaredNames_callLines (r : Request) (withBody : Bool) :
    declaredNames (r.callLines withBody) = ["response"] := by
  have start : declaredIn "const response = await this.request(".toList = some "response" := by
    decide +kernel
  rw [callLines_eq, sending, List.cons_append, List.cons_append, declaredNames_cons start,
    declaredNames_eq_nil]
  generalize (if withBody then r.bodyParameter.map (·.name) else none) = body
  cases body <;> simp

/-- The body of a raw method declares the same names whatever it is made from. -/
theorem declaredNames_bodyLines (r : Request) : declaredNames (bodyLines r) = bodyNames := by
  have gap (ls : List String) : declaredNames ("" :: ls) = declaredNames ls :=
    List.filterMap_cons_none rfl
  have last (kind : ResponseKind) : declaredNames [Request.returnLine kind] = [] := by
    cases kind <;> decide +kernel
  rw [bodyLines, declaredNames_append, gap, declaredNames_append, gap, declaredNames_append, gap,
    Request.lastLine, last, declaredNames_queryLines, Request.sentHeaders,
    declaredNames_headerLines, Request.sentCall, declaredNames_callLines]
  rfl

/-! ## Methods of a class -/

/-- Whether two methods take parameters of the given identifiers and then the overrides, and the body
of the first one declares the given names. -/
structure Knows (identifiers declared : List String) (raw conv : Method) : Prop where
  takenRaw : raw.signature.parameters.map (·.name) = identifiers ++ [overridesName]
  taken : conv.signature.parameters.map (·.name) = identifiers ++ [overridesName]
  body : ∃ ls, raw.body.text = .ok (Text.unlines ls) ∧ declaredNames ls = declared

theorem knows (p : MethodPlan) (documentation : Option String) :
    Knows (p.inputs.inOrder.map (·.identifier)) bodyNames (rawMethod p documentation)
      (convenienceMethod p documentation) := by
  have names : (methodParameters p.inputs).map (·.name) =
      p.inputs.inOrder.map (·.identifier) ++ [overridesName] := by
    simp [methodParameters, Function.comp_def]
  exact ⟨names, names, _, text_rawMethod p documentation, declaredNames_bodyLines p.request⟩

/-- **Which parameters meet names of their method.** Both methods for an operation take its
parameters and then the overrides, and the body of the raw one declares `bodyNames`. A parameter is
called like the overrides, or like something that is declared, exactly if the operation has a
parameter that travels and whose wire name has the same words. -/
theorem classFor_localNames {scope : Scope} {width : Int} {security : List Value}
    {modules : List (String × String)} {tag : String} {operations : List Operation} {c : Class}
    (ended : (classFor scope width security modules tag operations).result = .ok c) :
    HasPairs (fun o raw conv => ∃ identifiers, Knows identifiers bodyNames raw conv ∧
      ∀ name ∈ overridesName :: bodyNames, name ∈ identifiers ↔
        ∃ p ∈ o.parameters, (placeOf? (Source.placeholderNames o.path) p).isSome ∧
          Name.words p.name.toList = Name.words name.toList) operations c := by
  have spelled : ∀ name ∈ overridesName :: bodyNames, Name.IsSpelled name ∧
      Name.endsInDigit name = false ∧ bodyName ≠ name := by
    decide +kernel
  refine (classFor_pairs ended).mono ?_
  rintro o raw conv ⟨p, documentation, ⟨name, planned⟩, rfl, rfl⟩
  refine ⟨_, knows p documentation, fun name mem => ?_⟩
  obtain ⟨known, noDigit, other⟩ := spelled name mem
  refine (inputsOf_identifiers scope o noDigit _ planned.inputs).trans ?_
  simp only [Name.valueName_eq_iff known, other, and_false, or_false]

theorem classFor_localNames_of_patching :
    ∃ c, (classFor ⟨[], 64⟩ 80 [] [] "pets" [patching]).result = .ok c ∧
      HasPairs (fun o raw conv => ∃ identifiers, Knows identifiers bodyNames raw conv ∧
        ∀ name ∈ overridesName :: bodyNames, name ∈ identifiers ↔
          ∃ p ∈ o.parameters, (placeOf? (Source.placeholderNames o.path) p).isSome ∧
            Name.words p.name.toList = Name.words name.toList) [patching] c := by
  have succeeds : (classFor ⟨[], 64⟩ 80 [] [] "pets" [patching]).result.isOk := by decide +kernel
  obtain ⟨c, ended⟩ := exists_eq_ok succeeds
  exact ⟨c, ended, classFor_localNames ended⟩

/-- Wire names may have the words of what is declared and those of the overrides. Then one
identifier is declared again, and another one stands twice among the parameters. -/
theorem identifiers_meet_declarations :
    ∃ ls, rawParts { patching with
          method := "GET"
          path := "/pets"
          parameters := [
            ⟨"response", .str "query", false, .null, ⟨.null, []⟩, false⟩,
            ⟨"init-overrides", .str "header", false, .null, ⟨.null, []⟩, false⟩]
          body := none } =
        .ok (some (["response", "initOverrides", "initOverrides"], some (Text.unlines ls))) ∧
      declaredNames ls = ["queryParameters", "headerParameters", "response"] := by
  refine ⟨[
    "const queryParameters: Record<string, any> = \x7b\x7d;",
    "if (response !== undefined) \x7b",
    "  queryParameters['response'] = response;",
    "\x7d",
    "",
    "const headerParameters: Record<string, string> = \x7b\x7d;",
    "if (initOverrides !== undefined && initOverrides !== null) \x7b",
    "  headerParameters['init-overrides'] = String(initOverrides);",
    "\x7d",
    "",
    "const response = await this.request(",
    "  \x7b",
    "    path: \x60/pets\x60,",
    "    method: 'GET',",
    "    headers: headerParameters,",
    "    query: queryParameters,",
    "  \x7d,",
    "  initOverrides,",
    ");",
    "",
    "return new JSONApiResponse(response);"], ?_, ?_⟩
  · decide +kernel
  · decide +kernel

end ClientGen.Client
