import ClientGen.Proofs.Document.Alike
import ClientGen.Proofs.Lists.Pointwise

/-!
# Documents with references replaced

A parameter, a body, a response or a path item may be written as a reference to a mapping of the
same document. Reading follows such a reference, once.

* **Replacing references by the mappings they lead to leaves what is read as it is**
  (`ofShared_inlined`), in any number of places and inside one another: apart from the places of its
  schemas the document is the same. The mapping that takes the place must not be a reference itself,
  the one that takes the place of a body must not be empty, and the references that are kept must
  lead to what they led to.
* A reference that leads to another reference is not followed to the end: the parameter that it
  stands for is lost (`ofEntries_loses_parameter`).

The proof goes through the document from the inside out. Each part is read alike from the values
that stand there before and after (`readParameter_matches`, `readOperation_matches`,
`readPath_matches`).
-/

namespace ClientGen.Document

open Report (Matches)
open Schema (Entrywise)

/-! ### Mappings that references lead to -/

/-- What a path of names leads to in a value. -/
def lookIn : List String → Value → Option Value
  | [], v => some v
  | name :: rest, v => (v.map?.bind (Entries.find? name)).bind (lookIn rest)

/-- The mapping that a reference leads to in a document. -/
def target? (root : Value) (ref : String) : Option Entries :=
  (lookIn (((Text.splitAt '/' ref).drop 1).map unescapeSegment) root).bind Value.map?

/-- What stands in one place of a document before and after references are replaced. Mappings that
are no references, and mappings that references lead to, are related by `C`, which says what may
change inside them: it is equality where nothing may. -/
inductive Inlines (root root' : Value) (C : Entries → Entries → Prop) : Value → Value → Prop
  /-- A mapping that was no reference and is none. -/
  | direct {es es' : Entries} : es.has "$ref" = false → es'.has "$ref" = false → C es es' →
      Inlines root root' C (.map es) (.map es')
  /-- A reference that is left as it was. -/
  | kept {es es' : Entries} {ref : String} : es.find? "$ref" = some (.str ref) →
      es'.find? "$ref" = some (.str ref) →
      C ((target? root ref).getD []) ((target? root' ref).getD []) →
      Inlines root root' C (.map es) (.map es')
  /-- A reference with the mapping that it leads to in its place. -/
  | replaced {es t t' : Entries} {ref : String} : es.find? "$ref" = some (.str ref) →
      target? root ref = some t → t'.has "$ref" = false → C t t' →
      Inlines root root' C (.map es) (.map t')
  /-- A value that is no mapping. -/
  | other {v : Value} : v.isMap = false → Inlines root root' C v v

section Following

variable {root root' : Value} {x y : Spot} {es es' : Entries}

theorem follow_treeOf (root : Value) (names : List String) (x : Spot) :
    (follow (treeOf root) names x).map (·.value) = lookIn names x.value := by
  induction names generalizing x with
  | nil => rfl
  | cons name rest ih =>
    rw [follow, lookIn, ← find?_treeOf root x name]
    cases (treeOf root).find? x name with
    | none => rfl
    | some y => exact ih y

theorem resolve_treeOf (root : Value) (ref : String) : ∃ place,
    (resolve (treeOf root) (.str ref)).result = .ok ⟨.map ((target? root ref).getD []), place⟩ := by
  have led := follow_treeOf root (((Text.splitAt '/' ref).drop 1).map unescapeSegment) ⟨root, []⟩
  have text : (Report.ofOption (Value.str ref).str? : Reading String) = pure ref := rfl
  have start : (treeOf root).rootSpot = ⟨root, []⟩ := rfl
  rw [resolve, text, pure_bind, start, target?, ← led]
  dsimp only
  generalize follow (treeOf root) _ _ = found
  cases found with
  | none => exact ⟨[], rfl⟩
  | some x =>
    obtain ⟨value, place⟩ := x
    cases value with
    | map es => exact ⟨place, rfl⟩
    | _ => exact ⟨[], rfl⟩

theorem find?_eq_none_of_has {name : String} (h : es.has name = false) : es.find? name = none := by
  rw [Entries.has] at h
  exact Option.not_isSome_iff_eq_none.1 (by rw [h]; exact Bool.false_ne_true)

theorem resolved_of_direct (value : x.value = .map es) (direct : es.has "$ref" = false) :
    (resolved (treeOf root) x).result = .ok x := by
  have found : (treeOf root).find? x "$ref" = none := by
    rw [Shared.find?, value]
    change (Entries.find? "$ref" es).map _ = none
    rw [find?_eq_none_of_has direct]
    rfl
  have mapped : mapping x = pure x := by
    rw [mapping, value]
    rfl
  rw [resolved, mapped, pure_bind, found]
  rfl

theorem resolved_of_refers (root : Value) {ref : String} (value : x.value = .map es)
    (refers : es.find? "$ref" = some (.str ref)) : ∃ place,
    (resolved (treeOf root) x).result =
      .ok ⟨.map ((target? root ref).getD []), place⟩ := by
  have found : ((treeOf root).find? x "$ref").map (·.value) = some (.str ref) := by
    rw [find?_treeOf, value]
    exact refers
  obtain ⟨y, here, refers⟩ := Option.map_eq_some_iff.1 found
  have mapped : mapping x = pure x := by
    rw [mapping, value]
    rfl
  rw [resolved, mapped, pure_bind, here]
  change ∃ place, (resolve (treeOf root) y.value).result = _
  rw [refers]
  exact resolve_treeOf root ref

theorem Inlines.resolved {C : Entries → Entries → Prop}
    (h : Inlines root root' C x.value y.value) :
    Matches (Maps C) (resolved (treeOf root) x) (resolved (treeOf root') y) := by
  generalize left : x.value = v at h
  generalize right : y.value = v' at h
  cases h with
  | direct none none' related =>
    exact .of_values (resolved_of_direct left none) (resolved_of_direct right none')
      ⟨_, _, left, right, related⟩
  | kept refers refers' related =>
    obtain ⟨place, ended⟩ := resolved_of_refers root left refers
    obtain ⟨place', ended'⟩ := resolved_of_refers root' right refers'
    exact .of_values ended ended' ⟨_, _, rfl, rfl, related⟩
  | replaced refers leads none related =>
    obtain ⟨place, ended⟩ := resolved_of_refers root left refers
    rw [leads] at ended
    exact .of_values ended (resolved_of_direct right none) ⟨_, _, rfl, right, related⟩
  | other noMap =>
    have fails (z : Spot) (value : z.value = v) : mapping z = Report.malformed := by
      rw [mapping, value, noMap]
      rfl
    rw [Document.resolved, Document.resolved, fails x left, fails y right]
    exact .of_failures rfl rfl

end Following

/-! ### Parameters, bodies and responses -/

section Leaves

variable {root root' : Value} {x y : Spot}

theorem readParameter_matches (h : Inlines root root' (· = ·) x.value y.value) :
    Matches (fun p q => p.map Parameter.unplaced = q.map Parameter.unplaced)
      (readParameter (treeOf root) x) (readParameter (treeOf root') y) := by
  refine h.resolved.bind fun a b h => ?_
  have same := h.sameValue
  rw [same.valueOf_eq root root' "name"]
  split
  · have whole : (treeOf root).whole a = (treeOf root').whole b := same
    rw [whole]
    exact (Matches.refl _).mono fun p q h => congrArg _ h
  · next value _ =>
    refine (Matches.refl (shown value)).bind fun name name' h => ?_
    subst h
    have read (location : Key) : Matches (fun p q => p.map Parameter.unplaced =
          q.map Parameter.unplaced)
        (pure (some (parameterAt (treeOf root) a name location)) : Reading _)
        (pure (some (parameterAt (treeOf root') b name location))) :=
      .pure (congrArg some (unplaced_parameterAt same name location))
    have found := same.find? root root' "in"
    revert found
    generalize (treeOf root).find? a "in" = c
    generalize (treeOf root').find? b "in" = c'
    rintro (same | _)
    · refine Matches.bind (r := (· = ·)) ?_ fun k k' h => h ▸ read k
      rw [SameValue] at same
      rw [same]
      exact .refl _
    · exact read _

theorem readBody_matches (h : Inlines root root' (· = ·) x.value y.value) :
    Matches (fun b b' => b.unplaced = b'.unplaced) (readBody (treeOf root) x)
      (readBody (treeOf root') y) := by
  refine h.resolved.bind fun a b h => ?_
  have same := h.sameValue
  refine (readContent_matches (same.get root root' "content")).bind fun c c' h => .pure ?_
  rw [RequestBody.unplaced, RequestBody.unplaced, h, same.valueOf_eq root root' "description",
    same.get root root' "required"]

theorem readResponse_matches (status : String)
    (h : Inlines root root' (· = ·) x.value y.value) :
    Matches (fun r r' => r.unplaced = r'.unplaced) (readResponse (treeOf root) status x)
      (readResponse (treeOf root') status y) := by
  refine h.resolved.bind fun a b h => ?_
  have same := h.sameValue
  refine (readContent_matches (same.get root root' "content")).bind fun c c' h => .pure ?_
  rw [Response.unplaced, Response.unplaced, h, same.whole_find? root root' "description"]

end Leaves

/-! ### Operations and paths with references replaced -/

section Statements

variable (root root' : Value)

/-- What lists parameters, with references among them replaced. -/
structure InlinesParameters (v v' : Value) : Prop where
  truthy : v.truthy = v'.truthy
  items : Option.Rel (List.Forall₂ (Inlines root root' (· = ·))) v.listed? v'.listed?

/-- The body of a request, where there is one. It may have taken the place of a reference. -/
structure InlinesBody (v v' : Value) : Prop where
  truthy : v.truthy = v'.truthy
  body : v.truthy = true → Inlines root root' (· = ·) v v'

/-- What stands under a key of an operation, with references in it replaced. -/
structure InlinesInOperation (k : Key) (v v' : Value) : Prop where
  parameters : k = .str "parameters" → InlinesParameters root root' v v'
  body : k = .str "requestBody" → InlinesBody root root' v v'
  responses : k = .str "responses" → Mapwise (fun _ => Inlines root root' (· = ·)) v v'
  others : k ∉ [.str "parameters", .str "requestBody", .str "responses"] → v = v'

/-- What stands under a key of a path item, with references in it replaced. -/
structure InlinesInItem (k : Key) (v v' : Value) : Prop where
  parameters : k = .str "parameters" → InlinesParameters root root' v v'
  operation : ∀ word, k = .str word → Text.lower word ∈ verbs →
    Mapwise (InlinesInOperation root root') v v'

/-- Paths with references in them replaced. A path item may itself have taken the place of a
reference. -/
abbrev InlinesPaths : Value → Value → Prop :=
  Mapwise fun _ => Inlines root root' (Entrywise (InlinesInItem root root'))

/-- What stands under a key of a document, with references in it replaced. -/
structure InlinesInDocument (k : Key) (v v' : Value) : Prop where
  paths : k = .str "paths" → InlinesPaths root root' v v'
  components : k = .str "components" →
    Mapwise (fun k v v' => k ∈ [.str "schemas", .str "securitySchemes"] → v = v') v v'
  others : k ∈ [.str "openapi", .str "info", .str "servers", .str "security"] → v = v'

end Statements

section Operations

variable {root root' : Value} {x y : Spot} {v v' : Value}

theorem InlinesParameters.null : InlinesParameters root root' .null .null := ⟨rfl, .none⟩

theorem InlinesParameters.listed (h : InlinesParameters root root' x.value y.value) :
    Matches (List.Forall₂ fun a b => Inlines root root' (· = ·) a.value b.value)
      (listedOrNone (treeOf root) x) (listedOrNone (treeOf root') y) :=
  listedOrNone_matches h.truthy h.items

/-- The body of an operation's requests, where it has one. -/
def readRequest (source : Shared) (x : Spot) : Reading (Option RequestBody) :=
  if x.value.truthy then some <$> readBody source x else pure none

/-- The responses of an operation. -/
def readAnswers (source : Shared) (x : Spot) : Reading (List (String × Response)) := do
  let answers ← mappingOrNone x
  readEach (fun e => do
    let status ← shownKey e.1
    return (status, ← readResponse source status e.2)) (source.entries answers)

/-- An operation is read part by part. -/
theorem readOperation_parts (source : Shared) (path method : String) (shared x : Spot) :
    readOperation source path method shared x = (do
      let sharedItems ← listedOrNone source shared
      let ownItems ← listedOrNone source (source.get x "parameters")
      let parameters ← readEach (readParameter source) (sharedItems ++ ownItems)
      let body ← readRequest source (source.get x "requestBody")
      let responses ← readAnswers source (source.get x "responses")
      let listedTags ← listedOrNone source (source.get x "tags")
      let tags ← readEach (fun y => shown (source.whole y)) listedTags
      let security ← readSecurity source (source.get x "security")
      return {
        method
        path
        operationId := source.valueOf x "operationId"
        tags
        summary := source.valueOf x "summary"
        description := source.valueOf x "description"
        parameters := mergeParameters (parameters.filterMap id)
        body
        responses := byText responses
        isDeprecated := (source.get x "deprecated").value.truthy
        security := security.map fun ys => ys.map source.whole }) := by
  have later {α : Type} (answers : Spot) (f : List (String × Response) → Reading α) :
      (readAnswers source answers >>= f) = (do
        let answers ← mappingOrNone answers
        let responses ← readEach (fun e => do
          let status ← shownKey e.1
          return (status, ← readResponse source status e.2)) (source.entries answers)
        f responses) := by
    rw [readAnswers, bind_assoc]
  rw [readOperation]
  refine bind_congr fun _ => bind_congr fun _ => bind_congr fun _ => ?_
  simp only [later]
  generalize source.get x "requestBody" = request
  rw [readRequest]
  -- What follows the body stands in the text once for each of its two cases.
  split
  all_goals
    refine bind_congr fun _ => bind_congr fun _ => bind_congr fun _ => bind_congr fun _ =>
      bind_congr fun _ => ?_
    generalize source.get x "security" = security
    obtain ⟨value, place⟩ := security
    cases value <;> rfl

theorem readRequest_matches (h : InlinesBody root root' x.value y.value) :
    Matches (fun b b' => b.map RequestBody.unplaced = b'.map RequestBody.unplaced)
      (readRequest (treeOf root) x) (readRequest (treeOf root') y) := by
  rw [readRequest, readRequest, ← h.truthy]
  split
  · next truthy =>
    exact (readBody_matches (h.body truthy)).map fun b b' same => congrArg some same
  · exact .pure rfl

theorem readAnswers_matches
    (h : Mapwise (fun _ => Inlines root root' (· = ·)) x.value y.value) :
    Matches (List.Forall₂ fun r r' => (r.1, r.2.unplaced) = (r'.1, r'.2.unplaced))
      (readAnswers (treeOf root) x) (readAnswers (treeOf root') y) := by
  refine (mappingOrNone_matches h).bind fun a b h => ?_
  refine readEntries_matches h fun k z z' inlines => ?_
  refine (Matches.refl (shownKey k)).bind fun status status' h => ?_
  subst h
  exact (readResponse_matches status inlines).bind fun r r' same =>
    .pure (congrArg (Prod.mk status) same)

/-- An operation with references in it replaced, on a path whose parameters may have been replaced
as well. -/
theorem readOperation_matches (path method : String) {shared shared' : Spot}
    (parameters : InlinesParameters root root' shared.value shared'.value)
    (h : Maps (Entrywise (InlinesInOperation root root')) x y) :
    Matches (fun o o' => o.unplaced = o'.unplaced)
      (readOperation (treeOf root) path method shared x)
      (readOperation (treeOf root') path method shared' y) := by
  have own : InlinesParameters root root' ((treeOf root).get x "parameters").value
      ((treeOf root').get y "parameters").value :=
    h.get (fun _ _ here => here.parameters rfl) .null
  have request : InlinesBody root root' ((treeOf root).get x "requestBody").value
      ((treeOf root').get y "requestBody").value :=
    h.get (fun _ _ here => here.body rfl) ⟨rfl, fun truthy => nomatch truthy⟩
  have answers : Mapwise (fun _ => Inlines root root' (· = ·))
      ((treeOf root).get x "responses").value ((treeOf root').get y "responses").value :=
    h.get (fun _ _ here => here.responses rfl) (.other rfl)
  have other (name : String) (kept : Key.str name ∉
        [.str "parameters", .str "requestBody", .str "responses"]) :
      SameValue ((treeOf root).get x name) ((treeOf root').get y name) :=
    h.sameValue_get fun _ _ here => here.others kept
  rw [readOperation_parts, readOperation_parts]
  refine parameters.listed.bind fun items items' shared => ?_
  refine own.listed.bind fun items items' own => ?_
  refine (readEach_matches ((List.rel_append shared own).imp fun a b h =>
    readParameter_matches h)).bind fun ps ps' parameters => ?_
  refine (readRequest_matches request).bind fun body body' body_eq => ?_
  refine (readAnswers_matches answers).bind fun rs rs' responses => ?_
  refine (other "tags" (by decide)).listedOrNone.bind fun items items' items_eq => ?_
  refine (readTags_matches items_eq).bind fun tags tags' tags_eq => ?_
  refine (readSecurity_matches (other "security" (by decide))).bind fun s s' security =>
    .pure ?_
  have operationId : (treeOf root).valueOf x "operationId" =
      (treeOf root').valueOf y "operationId" := other "operationId" (by decide)
  have summary : (treeOf root).valueOf x "summary" = (treeOf root').valueOf y "summary" :=
    other "summary" (by decide)
  have description : (treeOf root).valueOf x "description" =
      (treeOf root').valueOf y "description" := other "description" (by decide)
  have deprecated : ((treeOf root).get x "deprecated").value =
      ((treeOf root').get y "deprecated").value := other "deprecated" (by decide)
  simp only [Operation.unplaced, mergeParameters_map, map_filterMap_id,
    map_eq_of_forall₂ parameters, body_eq, byText_map, map_eq_of_forall₂ responses, tags_eq, security, operationId, summary,
    description, deprecated]

/-- A word that a key gives is the key's own, where it is a verb. -/
theorem key_of_verbOf {k : Key} {word : Option String} (ok : (verbOf k).result = .ok word)
    (verb : Text.lower (word.getD "") ∈ verbs) : k = .str (word.getD "") := by
  cases k with
  | str s =>
    cases ok
    rfl
  | other scalar =>
    cases scalar with
    | bytes content =>
      cases ok
      exact absurd verb (by decide)
    | moment t => cases ok
  | _ => cases ok

/-- The operation under a key of a path item, where the key is a verb. -/
def readUnder (source : Shared) (path : String) (shared : Spot) (k : Key) (x : Spot) :
    Reading (Option (String × Operation)) := do
  let word ← verbOf k
  if verbs.contains (Text.lower (word.getD "")) && x.value.isMap then
    let operation ← readOperation source path (Text.upper (word.getD "")) shared x
    return some (Text.lower (word.getD ""), operation)
  else return none

theorem readUnder_matches (path : String) {shared shared' : Spot} {k : Key}
    (parameters : InlinesParameters root root' shared.value shared'.value)
    (h : InlinesInItem root root' k x.value y.value) :
    Matches (fun o o' => (o.map fun o => (o.1, o.2.unplaced)) = o'.map fun o => (o.1, o.2.unplaced))
      (readUnder (treeOf root) path shared k x) (readUnder (treeOf root') path shared' k y) := by
  refine .bind_of_ok fun word ok => ?_
  by_cases verb : Text.lower (word.getD "") ∈ verbs
  · have operation := h.operation _ (key_of_verbOf ok verb) verb
    rw [List.contains_iff_mem.2 verb, Bool.true_and, Bool.true_and, operation.isMap_eq]
    split
    · next mapped =>
      generalize left : x.value = v at operation
      generalize right : y.value = v' at operation mapped
      cases operation with
      | maps related =>
        refine (readOperation_matches path (Text.upper (word.getD "")) parameters
          ⟨_, _, left, right, related⟩).bind fun o o' same => .pure ?_
        rw [Option.map_some, Option.map_some, same]
      | other noMap =>
        rw [noMap] at mapped
        cases mapped
    · exact .pure rfl
  · have none : verbs.contains (Text.lower (word.getD "")) = false := by
      rw [List.contains_eq_mem, decide_eq_false_iff_not]
      exact verb
    rw [none, Bool.false_and, Bool.false_and]
    exact .pure rfl

theorem readOperations_matches (path : String)
    (h : Maps (Entrywise (InlinesInItem root root')) x y) :
    Matches (fun os os' => (os.map fun o => (o.1, o.2.unplaced)) =
        os'.map fun o => (o.1, o.2.unplaced))
      (readOperations (treeOf root) path x) (readOperations (treeOf root') path y) := by
  have parameters : InlinesParameters root root' ((treeOf root).get x "parameters").value
      ((treeOf root').get y "parameters").value :=
    h.get (fun _ _ here => here.parameters rfl) .null
  have found : Matches (List.Forall₂ fun o o' => (o.map fun o => (o.1, o.2.unplaced)) =
        o'.map fun o => (o.1, o.2.unplaced))
      (readEach (fun e => readUnder (treeOf root) path ((treeOf root).get x "parameters") e.1 e.2)
        ((treeOf root).entries x))
      (readEach (fun e => readUnder (treeOf root') path ((treeOf root').get y "parameters") e.1 e.2)
        ((treeOf root').entries y)) :=
    readEntries_matches h fun k z z' item => readUnder_matches path parameters item
  refine found.bind fun os os' h => .pure ?_
  change (byText (os.filterMap id)).map _ = (byText (os'.filterMap id)).map _
  rw [byText_map, byText_map, map_filterMap_id, map_filterMap_id, map_eq_of_forall₂ h]

theorem readPath_matches (k : Key)
    (h : Inlines root root' (Entrywise (InlinesInItem root root')) x.value y.value) :
    Matches (fun p p' => p.unplaced = p'.unplaced) (readPath (treeOf root) k x)
      (readPath (treeOf root') k y) := by
  have mapped : x.value.isMap = y.value.isMap := by
    generalize x.value = v at h
    generalize y.value = v' at h
    cases h <;> rfl
  rw [readPath, readPath, mapped]
  split
  · refine h.resolved.bind fun a b item => ?_
    refine (Matches.refl (shownKey k)).bind fun path path' same => ?_
    subst same
    refine (readOperations_matches path item).bind fun os os' same => .pure ?_
    rw [PathItem.unplaced, PathItem.unplaced, same]
  · refine (Matches.refl (shownKey k)).bind fun path path' same => .of_failures rfl rfl

theorem readPaths_matches
    (paths : InlinesPaths root root' ((treeOf root).get (treeOf root).rootSpot "paths").value
      ((treeOf root').get (treeOf root').rootSpot "paths").value) :
    Matches (fun ps ps' => (ps.map fun p => (p.1, p.2.unplaced)) =
        ps'.map fun p => (p.1, p.2.unplaced))
      (readPaths (treeOf root)) (readPaths (treeOf root')) := by
  refine (mappingOrNone_matches paths).bind fun a b h => ?_
  refine (readEntries_matches (r := fun p p' => (p.1, p.2.unplaced) = (p'.1, p'.2.unplaced)) h
    fun k z z' inlines => ?_).bind fun ps ps' h => .pure ?_
  · exact (readPath_matches k inlines).bind fun p p' same =>
      .pure (congrArg (fun q : PathItem => (q.path, q)) same)
  · rw [byText_map, byText_map, map_eq_of_forall₂ h]

end Operations

/-! ### Documents -/

section Documents

variable {root root' : Value} {x y : Spot} {es es' : Entries}

/-- Two documents, of which the second may be got from the first by replacing references. -/
abbrev InlinesDocument (es es' : Entries) : Prop :=
  Entrywise (InlinesInDocument (.map es) (.map es')) es es'

theorem readSchemas_matches (h : Maps (Entrywise fun _ => (· = ·)) x y) :
    Matches (fun cs cs' => (cs.map fun c => (c.1, c.2.unplaced)) =
        cs'.map fun c => (c.1, c.2.unplaced))
      (readEach (fun e => do return (← shownKey e.1, (treeOf root).written e.2))
        ((treeOf root).entries x))
      (readEach (fun e => do return (← shownKey e.1, (treeOf root').written e.2))
        ((treeOf root').entries y)) := by
  refine (readEntries_matches (r := fun c c' => (c.1, c.2.unplaced) = (c'.1, c'.2.unplaced)) h
    fun k z z' same => ?_).mono fun cs cs' h => map_eq_of_forall₂ h
  exact (Matches.refl (shownKey k)).bind fun name name' h =>
    .pure (Prod.ext h (SameValue.unplaced_eq same))

theorem ofShared_matches
    (top : Maps (Entrywise (InlinesInDocument root root')) (treeOf root).rootSpot
      (treeOf root').rootSpot) :
    Matches (fun d d' => d.unplaced = d'.unplaced) (ofShared (treeOf root))
      (ofShared (treeOf root')) := by
  have truthy : (treeOf root).rootSpot.value.truthy = (treeOf root').rootSpot.value.truthy := by
    obtain ⟨es, es', left, right, related⟩ := top
    rw [left, right]
    exact (Mapwise.maps related).truthy_eq
  have kept (name : String) (other : Key.str name ∈
        [.str "openapi", .str "info", .str "servers", .str "security"]) :
      SameValue ((treeOf root).get (treeOf root).rootSpot name)
        ((treeOf root').get (treeOf root').rootSpot name) :=
    top.sameValue_get fun _ _ here => here.others other
  have supported : ((treeOf root).find? (treeOf root).rootSpot "openapi").map (treeOf root).whole =
      ((treeOf root').find? (treeOf root').rootSpot "openapi").map (treeOf root').whole :=
    top.whole_find? _ _ fun _ _ here => here.others (by decide)
  have paths : InlinesPaths root root' ((treeOf root).get (treeOf root).rootSpot "paths").value
      ((treeOf root').get (treeOf root').rootSpot "paths").value :=
    top.get (fun _ _ here => here.paths rfl) (.other rfl)
  have components : Mapwise (fun k v v' => k ∈ [.str "schemas", .str "securitySchemes"] → v = v')
      ((treeOf root).get (treeOf root).rootSpot "components").value
      ((treeOf root').get (treeOf root').rootSpot "components").value :=
    top.get (fun _ _ here => here.components rfl) (.other rfl)
  rw [ofShared, ofShared, truthy, supported]
  split
  · exact .of_failures rfl rfl
  refine (Matches.refl (shown _)).bind fun openapi openapi' h => ?_
  subst h
  split
  · exact .of_failures rfl rfl
  refine (kept "info" (by decide)).mappingOrNone.bind fun info info' described => ?_
  have field (name : String) :
      (treeOf root).valueOf info name = (treeOf root').valueOf info' name :=
    described.sameValue_get fun _ _ same => same
  rw [field "title", field "version", field "description"]
  refine (Matches.refl (shownOrEmpty _)).bind fun title title' h => ?_
  subst h
  refine (Matches.refl (shownOrEmpty _)).bind fun version version' h => ?_
  subst h
  refine (kept "servers" (by decide)).listedOrNone.bind fun as bs items => ?_
  refine (readServers_matches items).bind fun servers servers' h => ?_
  subst h
  refine (readPaths_matches paths).bind fun paths paths' paths_eq => ?_
  refine (mappingOrNone_matches components).bind fun parts parts' h => ?_
  have part (name : String) (other : Key.str name ∈ [.str "schemas", .str "securitySchemes"]) :
      SameValue ((treeOf root).get parts name) ((treeOf root').get parts' name) :=
    h.sameValue_get fun _ _ same => same other
  refine (part "schemas" (by decide)).mappingOrNone.bind fun schemas schemas' h => ?_
  refine (readSchemas_matches h).bind fun cs cs' components_eq => ?_
  refine (readSecuritySchemes_matches (part "securitySchemes" (by decide))).bind
    fun schemes schemes' h => ?_
  subst h
  refine (kept "security" (by decide)).listedOrNone.bind fun as bs security => .pure ?_
  have required : as.map (treeOf root).whole = bs.map (treeOf root').whole := map_whole_eq security
  simp only [Document.unplaced, paths_eq, byText_map, components_eq, required]

/-- **Replacing references by the mappings that they lead to leaves what is read as it is.** -/
theorem ofShared_inlined {source source' : Shared} {d : Document}
    (plain : source.links.hasLoop = false) (plain' : source'.links.hasLoop = false)
    (root : source.root = .map es) (root' : source'.root = .map es')
    (inlines : InlinesDocument es es') (parsed : (ofShared source).result = .ok d) :
    ∃ d', (ofShared source').result = .ok d' ∧ d'.unplaced = d.unplaced := by
  have top : Maps (Entrywise (InlinesInDocument (.map es) (.map es')))
      (treeOf (.map es)).rootSpot (treeOf (.map es')).rootSpot := ⟨es, es', rfl, rfl, inlines⟩
  have matched : Matches (fun d d' => d.unplaced = d'.unplaced) (ofShared source)
      (ofShared source') := by
    rw [ofShared_eq_treeOf plain, ofShared_eq_treeOf plain', root, root']
    exact (ofShared_matches top).map fun d d' same => same
  obtain ⟨d', ended, same⟩ := matched.exists_ok parsed
  exact ⟨d', ended, same.symm⟩

end Documents

/-! ### Pets, with references and without -/

section Pets

/-- A reference to a part of the components. -/
def componentRef (kind name : String) : Entries :=
  [(.str "$ref", .str ("#/components/" ++ kind ++ "/" ++ name))]

/-- A parameter for the number of pets. -/
def petLimit : Entries :=
  [(.str "name", .str "limit"), (.str "schema", .map [(.str "type", .str "integer")])]

/-- A body in JSON. -/
def petBody : Entries :=
  [(.str "content", .map [(.str "application/json", .map [(.str "schema", .map [])])])]

/-- A response that describes itself. -/
def petAnswer : Entries := [(.str "description", .str "Done")]

/-- A path item with a single operation. -/
def petItem (parameter body answer : Entries) : Entries :=
  [(.str "post", .map [(.str "parameters", .list [.map parameter]),
    (.str "requestBody", .map body), (.str "responses", .map [(.str "200", .map answer)])])]

/-- A document on pets, with one path. -/
def petDocument (item : Entries) : Entries :=
  [(.str "openapi", .str "3.1.0"),
    (.str "info", .map [(.str "title", .str "Pets"), (.str "version", .str "1")]),
    (.str "paths", .map [(.str "/pets", .map item)]),
    (.str "components", .map [
      (.str "parameters", .map [(.str "Limit", .map petLimit),
        (.str "Size", .map (componentRef "parameters" "Limit"))]),
      (.str "requestBodies", .map [(.str "Pet", .map petBody)]),
      (.str "responses", .map [(.str "Done", .map petAnswer)]),
      (.str "pathItems", .map [(.str "Pets", .map
        (petItem (componentRef "parameters" "Limit") (componentRef "requestBodies" "Pet")
          (componentRef "responses" "Done")))])])]

/-- A path item, its parameter, its body and its response, each with its reference replaced. -/
theorem ofShared_inlined_of_pets : ∃ d d' : Document,
    (ofEntries (petDocument (componentRef "pathItems" "Pets"))).result = .ok d ∧
      (ofEntries (petDocument (petItem petLimit petBody petAnswer))).result = .ok d' ∧
        d'.unplaced = d.unplaced := by
  obtain ⟨d, parsed⟩ := exists_eq_ok
    (show (ofEntries (petDocument (componentRef "pathItems" "Pets"))).result.isOk = true from rfl)
  have kept {root root' : Value} {k : Key} (v : Value) (other : k ≠ .str "paths") :
      InlinesInDocument root root' k v v :=
    ⟨fun key => absurd key other, fun _ => .refl (fun _ _ _ => rfl) v, fun _ => rfl⟩
  let root : Value := .map (petDocument (componentRef "pathItems" "Pets"))
  let root' : Value := .map (petDocument (petItem petLimit petBody petAnswer))
  have parameters : InlinesInOperation root root' (.str "parameters")
      (.list [.map (componentRef "parameters" "Limit")]) (.list [.map petLimit]) :=
    ⟨fun _ => ⟨rfl, .some (.cons (.replaced rfl rfl rfl rfl) .nil)⟩,
      fun key => absurd key (by decide), fun key => absurd key (by decide),
      fun other => absurd List.mem_cons_self other⟩
  have body : InlinesInOperation root root' (.str "requestBody")
      (.map (componentRef "requestBodies" "Pet")) (.map petBody) :=
    ⟨fun key => absurd key (by decide), fun _ => ⟨rfl, fun _ => .replaced rfl rfl rfl rfl⟩,
      fun key => absurd key (by decide), fun other => absurd (by decide) other⟩
  have responses : InlinesInOperation root root' (.str "responses")
      (.map [(.str "200", .map (componentRef "responses" "Done"))])
      (.map [(.str "200", .map petAnswer)]) :=
    ⟨fun key => absurd key (by decide), fun key => absurd key (by decide),
      fun _ => .maps (.cons (.replaced rfl rfl rfl rfl) .nil),
      fun other => absurd (by decide) other⟩
  have item : Entrywise (InlinesInItem root root')
      (petItem (componentRef "parameters" "Limit") (componentRef "requestBodies" "Pet")
        (componentRef "responses" "Done"))
      (petItem petLimit petBody petAnswer) :=
    .cons ⟨fun key => absurd key (by decide),
      fun _ _ _ => .maps (.cons parameters (.cons body (.cons responses .nil)))⟩ .nil
  have paths : InlinesInDocument root root' (.str "paths")
      (.map [(.str "/pets", .map (componentRef "pathItems" "Pets"))])
      (.map [(.str "/pets", .map (petItem petLimit petBody petAnswer))]) :=
    ⟨fun _ => .maps (.cons (.replaced rfl rfl rfl item) .nil), fun key => absurd key (by decide),
      fun other => absurd other (by decide)⟩
  have inlines : InlinesDocument (petDocument (componentRef "pathItems" "Pets"))
      (petDocument (petItem petLimit petBody petAnswer)) :=
    .cons (kept _ (by decide)) (.cons (kept _ (by decide)) (.cons paths
      (.cons (kept _ (by decide)) .nil)))
  obtain ⟨d', ended, same⟩ : ∃ d',
      (ofEntries (petDocument (petItem petLimit petBody petAnswer))).result = .ok d' ∧
        d'.unplaced = d.unplaced := ofShared_inlined rfl rfl rfl rfl inlines parsed
  exact ⟨d, d', parsed, ended, same⟩

/-- A document on pets whose single parameter is a reference. -/
def petsBy (parameter : String) : Entries :=
  petDocument (petItem (componentRef "parameters" parameter) petBody petAnswer)

/-- The parameter `Size` is a reference to `Limit`. What refers to `Size` gives no parameter, and
what refers to `Limit` in its place gives one. -/
theorem ofEntries_loses_parameter :
    ((target? (.map (petsBy "Size")) "#/components/parameters/Size").bind fun t =>
        (t.get "$ref").str?) = some "#/components/parameters/Limit" ∧
      (ofEntries (petsBy "Size")).result.map (fun d => d.operations.map (·.parameters.length)) =
        .ok [0] ∧
      (ofEntries (petsBy "Limit")).result.map (fun d => d.operations.map (·.parameters.length)) =
        .ok [1] :=
  ⟨rfl, rfl, rfl⟩

end Pets

end ClientGen.Document
