import ClientGen.Document.Read
import ClientGen.Proofs.Client.Methods

/-!
# How parameters are sent

Which parameters of an operation travel where is said by `sortParameters_places`. The body of a raw
method is put together from lines for them, and each parameter is found in its lines:

* one in the query or in the headers is stored under its wire name before the request is sent
  (`stores_query`, `stores_header`);
* one in the path replaces its placeholder (`substituted_path`), unless another one of its wire name
  comes later, which does not happen for operations that are read from a document
  (`mergeParameters_path_nodup`).

`classFor_transmits` says so of all methods of a class, and that the body is sent for every verb but
GET and DELETE.
-/

namespace ClientGen.Client

open Report (Yields bind_result_eq_ok_iff)
open Schema (Scope)
open Source (PathPiece pathPieces escapeTemplate)

/-! ## Where parameters travel -/

/-- The parameters that are kept travel in their places, in the order of the operation and under
their wire names. -/
theorem sortParameters_places (scope : Scope) (o : Operation) (placeholders : List String)
    (used : List String) (parameters : List Parameter) :
    Yields (fun r => r.1.map (fun i => (i.1, i.2.wireName)) =
        parameters.filterMap fun p => (placeOf? placeholders p).map fun place => (place, p.name))
      (sortParameters scope o placeholders used parameters) := by
  induction parameters generalizing used with
  | nil => exact .pure rfl
  | cons p rest ih =>
    refine Report.yields_bind fun type => Report.yields_bind fun default => ?_
    cases found : placeOf? placeholders p with
    | none =>
      refine Report.yields_bind fun shown => Report.yields_bind fun _ => ?_
      simpa only [List.filterMap_cons, found, Option.map_none] using ih used
    | some place =>
      refine (ih _).bind fun others sorted => .pure ?_
      simp only [List.map_cons, List.filterMap_cons, found, Option.map_some, sorted]

/-- The names of the parameters of an operation that travel in a place. -/
def namesAt (o : Operation) (place : Place) : List String :=
  (o.parameters.filter fun p =>
    placeOf? (Source.placeholderNames o.path) p = some place).map (·.name)

theorem names_of_sorted (placeholders : List String) (parameters : List Parameter) (place : Place) :
    ((parameters.filterMap fun p =>
        (placeOf? placeholders p).map fun place => (place, p.name)).filter
      (·.1 = place)).map (·.2) =
      (parameters.filter fun p => placeOf? placeholders p = some place).map (·.name) := by
  induction parameters with
  | nil => rfl
  | cons p rest ih =>
    rw [List.filterMap_cons, List.filter_cons]
    cases placeOf? placeholders p with
    | none => simpa using ih
    | some place' =>
      by_cases same : place' = place
      · simpa [same] using ih
      · simpa [same] using ih

/-- Whether the inputs of a method are the parameters of an operation, each where it travels and
under its wire name. -/
structure SortedFrom (o : Operation) (inputs : Inputs) : Prop where
  path : inputs.path.map (·.wireName) = namesAt o .path
  query : inputs.query.map (·.wireName) = namesAt o .query
  header : inputs.header.map (·.wireName) = namesAt o .header

theorem inputsOf_sortedFrom (scope : Scope) (o : Operation) :
    Yields (SortedFrom o) (inputsOf scope o) := by
  intro inputs ended
  obtain ⟨⟨sorted, used⟩, sorting, ended⟩ := bind_result_eq_ok_iff.1 ended
  obtain ⟨body, -, ended⟩ := bind_result_eq_ok_iff.1 ended
  cases ended
  have places := sortParameters_places scope o _ [] o.parameters _ sorting
  have inPlace (place : Place) :
      ((sorted.filter (·.1 = place)).map (·.2)).map (·.wireName) = namesAt o place := by
    rw [namesAt, ← names_of_sorted, ← places, List.filter_map, List.map_map, List.map_map]
    rfl
  exact ⟨inPlace .path, inPlace .query, inPlace .header⟩

/-! ## Texts that hold lines -/

/-- Whether lines stand in a text one after the other. -/
def HasLines (text : String) (ls : List String) : Prop :=
  ∃ before after, text = Text.unlines (before ++ ls ++ after)

/-- Whether three groups of lines stand in a text in this order, perhaps with others between
them. -/
def HasInOrder (text : String) (first second third : List String) : Prop :=
  ∃ before between rest after,
    text = Text.unlines (before ++ first ++ between ++ second ++ rest ++ third ++ after)

/-- The line before the query parameters. -/
def queryStart : String := "const queryParameters: Record<string, any> = \x7b\x7d;"

/-- The line before the header parameters. -/
def headerStart : String := "const headerParameters: Record<string, string> = \x7b\x7d;"

/-- The lines that store the value of an identifier as a query parameter. -/
def queryStore (wireName identifier : String) : List String := [
  "if (" ++ identifier ++ " !== undefined) \x7b",
  "  queryParameters[" ++ Source.singleQuoted wireName ++ "] = " ++ identifier ++ ";",
  "\x7d"]

/-- The lines that store the value of an identifier as a header parameter. -/
def headerStore (wireName identifier : String) : List String := [
  "if (" ++ identifier ++ " !== undefined && " ++ identifier ++ " !== null) \x7b",
  "  headerParameters[" ++ Source.singleQuoted wireName ++ "] = String(" ++ identifier ++ ");",
  "\x7d"]

/-- The lines that send a request to a path, perhaps with a body. -/
def sending (literal verb : String) (body : Option String) : List String :=
  ["const response = await this.request(", "  \x7b", "    path: " ++ literal ++ ",",
    "    method: " ++ Source.singleQuoted verb ++ ",", "    headers: headerParameters,",
    "    query: queryParameters,"]
  ++ (body.map fun identifier => "    body: JSON.stringify(" ++ identifier ++ "),").toList
  ++ ["  \x7d,", "  initOverrides,", ");"]

/-- Whether a template literal is that of a path in which the value of an identifier, encoded,
replaces the placeholder of a name. -/
def SubstitutedIn (literal path wireName identifier : String) : Prop :=
  .placeholder wireName.toList ∈ pathPieces path ∧
    ∃ written : PathPiece → List Char,
      literal.toList = '\x60' :: ((pathPieces path).flatMap written ++ ['\x60']) ∧
      (∀ cs, written (.text cs) = escapeTemplate cs) ∧
      written (.placeholder wireName.toList) =
        ("$\x7bencodeURIComponent(String(" ++ identifier ++ "))\x7d").toList

/-- Whether the body of a raw method sends its inputs. The verb decides whether a body is sent. -/
structure Transmits (o : Operation) (inputs : Inputs) (text literal : String)
    (request : List String) : Prop where
  asks : request = sending literal (Text.upper o.method)
    (if sendsBody o.method then inputs.body.map (·.identifier) else none)
  sends : HasLines text request
  /-- Of path parameters with one wire name the last one is sent. -/
  path : ∀ before i after, inputs.path = before ++ i :: after →
    i.wireName ∉ after.map (·.wireName) → SubstitutedIn literal o.path i.wireName i.identifier
  query : ∀ i ∈ inputs.query,
    HasInOrder text [queryStart] (queryStore i.wireName i.identifier) request
  header : ∀ i ∈ inputs.header,
    HasInOrder text [headerStart] (headerStore i.wireName i.identifier) request

/-! ## Bodies of raw methods -/

theorem callLines_eq (r : Request) (withBody : Bool) :
    r.callLines withBody = sending r.pathText r.method
      (if withBody then r.bodyParameter.map (·.name) else none) := by
  unfold Request.callLines sending
  cases withBody <;> cases r.bodyParameter <;> rfl

theorem queryLines_eq (r : Request) :
    r.queryLines = queryStart :: r.queryParameters.flatMap fun p => queryStore p.wireName p.name :=
  rfl

/-- The lines that store header parameters stand behind the type of a body and before those that ask
for a token. -/
theorem headerLines_eq (r : Request) (jsonBody : Bool) :
    ∃ type auth : List String, r.headerLines jsonBody = headerStart :: (type
      ++ (r.headerParameters.flatMap fun p => headerStore p.wireName p.name) ++ auth) := by
  refine ⟨if jsonBody then ["headerParameters['Content-Type'] = 'application/json';"] else [],
    if r.hasAuth then Request.authLines else [], ?_⟩
  simp only [Request.headerLines, List.append_assoc, List.singleton_append]
  rfl

/-- The lines of a member stand among those of all members. -/
theorem exists_flatMap_eq {α : Type} (f : α → List String) {l : List α} {a : α} (mem : a ∈ l) :
    ∃ before after, l.flatMap f = before ++ f a ++ after := by
  obtain ⟨front, back, rfl⟩ := List.append_of_mem mem
  exact ⟨front.flatMap f, back.flatMap f, by simp⟩

section Plan

variable {scope : Scope} {width : Int} {name : String} {o : Operation} {p : MethodPlan}

theorem request_eq (planned : Plans scope width name o p) :
    p.request.sentCall =
      sending p.request.pathText (Text.upper o.method)
        (if sendsBody o.method then p.inputs.body.map (·.identifier) else none) := by
  have named : (p.inputs.body.map (requestParameter width)).map (·.name) =
      p.inputs.body.map (·.identifier) := by
    rw [Option.map_map]
    rfl
  rw [Request.sentCall, callLines_eq, planned.method, sendsBody_upper, planned.bodyParameter, named]

theorem has_request (p : MethodPlan) :
    HasLines (Text.unlines (bodyLines p.request)) p.request.sentCall := by
  refine ⟨p.request.queryLines ++ "" :: (p.request.sentHeaders ++ [""]),
    ["", p.request.lastLine], ?_⟩
  simp [bodyLines]

theorem stores_query (planned : Plans scope width name o p) {i : MethodInput}
    (mem : i ∈ p.inputs.query) :
    HasInOrder (Text.unlines (bodyLines p.request)) [queryStart]
      (queryStore i.wireName i.identifier) p.request.sentCall := by
  have listed : requestParameter width i ∈ p.request.queryParameters := by
    rw [planned.queryParameters]
    exact List.mem_map_of_mem mem
  obtain ⟨between, rest, split⟩ :=
    exists_flatMap_eq (fun q : RequestParameter => queryStore q.wireName q.name) listed
  refine ⟨[], between, rest ++ "" :: (p.request.sentHeaders ++ [""]), ["", p.request.lastLine], ?_⟩
  simp [bodyLines, queryLines_eq, split, requestParameter]

theorem stores_header (planned : Plans scope width name o p) {i : MethodInput}
    (mem : i ∈ p.inputs.header) :
    HasInOrder (Text.unlines (bodyLines p.request)) [headerStart]
      (headerStore i.wireName i.identifier) p.request.sentCall := by
  have listed : requestParameter width i ∈ p.request.headerParameters := by
    rw [planned.headerParameters]
    exact List.mem_map_of_mem mem
  obtain ⟨between, rest, split⟩ :=
    exists_flatMap_eq (fun q : RequestParameter => headerStore q.wireName q.name) listed
  obtain ⟨type, auth, headers⟩ := headerLines_eq p.request
    (sendsBody p.request.method && p.request.bodyParameter.isSome)
  refine ⟨p.request.queryLines ++ [""], type ++ between, rest ++ auth ++ [""],
    ["", p.request.lastLine], ?_⟩
  simp [bodyLines, Request.sentHeaders, headers, split, requestParameter]

/-- Names at places in the path are those of placeholders. -/
theorem placeholder_mem_of_namesAt {wireName : String} (mem : wireName ∈ namesAt o .path) :
    PathPiece.placeholder wireName.toList ∈ pathPieces o.path := by
  obtain ⟨q, kept, rfl⟩ := List.mem_map.1 mem
  have place : placeOf? (Source.placeholderNames o.path) q = some .path := by
    simpa using (List.mem_filter.1 kept).2
  have named : q.name ∈ Source.placeholderNames o.path := by
    unfold placeOf? at place
    split at place
    · split at place
      · next found => exact List.contains_iff_mem.1 found
      · cases place
    · split at place
      · cases place
      · split at place <;> cases place
  obtain ⟨piece, listed, same⟩ := List.mem_filterMap.1 named
  cases piece with
  | text cs => cases same
  | placeholder cs =>
    rw [← Option.some.inj same, String.toList_ofList]
    exact listed

theorem substituted_path (planned : Plans scope width name o p) {before after : List MethodInput}
    {i : MethodInput} (split : p.inputs.path = before ++ i :: after)
    (last : i.wireName ∉ after.map (·.wireName)) :
    SubstitutedIn p.request.pathText o.path i.wireName i.identifier := by
  have sorted := inputsOf_sortedFrom scope o _ planned.inputs
  have listed : i.wireName ∈ namesAt o .path := by
    rw [← sorted.path, split]
    simp
  have found : (p.request.pathParameters.map fun q => (q.wireName, q.name)).reverse.lookup
      i.wireName = some i.identifier := by
    refine List.lookup_eq_some_iff.2
      ⟨(after.map fun j => (j.wireName, j.identifier)).reverse,
        (before.map fun j => (j.wireName, j.identifier)).reverse, ?_, ?_⟩
    · rw [planned.pathParameters, split]
      simp [requestParameter, Function.comp_def]
    · intro pair mem
      obtain ⟨j, later, rfl⟩ := List.mem_map.1 (List.mem_reverse.1 mem)
      have other : i.wireName ≠ j.wireName := fun same =>
        last (same ▸ List.mem_map_of_mem later)
      simpa using other
  refine ⟨placeholder_mem_of_namesAt listed, ?written, ?whole, ?text, ?placeholder⟩
  case whole =>
    rw [Request.pathText, Source.pathTemplate, planned.path]
    exact String.toList_ofList
  case text => exact fun cs => rfl
  case placeholder =>
    simp only [Source.placeholderText, String.ofList_toList, found]
    simp

end Plan

/-! ## Operations that are read -/

theorem same_str_iff (k : Key) (s : String) : k.same (.str s) = true ↔ k = .str s := by
  cases k <;> simp [Key.same, Key.fraction?]

theorem str_same_iff (s : String) (k : Key) : (Key.str s).same k = true ↔ k = .str s := by
  cases k with
  | str t =>
    simp only [Key.same, Key.fraction?, Bool.or_false, beq_iff_eq]
    exact eq_comm
  | _ => simp [Key.same, Key.fraction?]

/-- The names of the parameters in a location. -/
def namesIn (location : String) (ps : List Parameter) : List String :=
  (ps.filter fun p => p.location = .str location).map (·.name)

theorem namesIn_cons (location : String) (p : Parameter) (ps : List Parameter) :
    namesIn location (p :: ps) =
      (if p.location = .str location then [p.name] else []) ++ namesIn location ps := by
  unfold namesIn
  by_cases here : p.location = .str location <;> simp [here]

/-- Parameters that stand for the same thing have one name, and one of them is in a location of text
if the other one is. -/
theorem located_iff_of_same {q p : Parameter} (same : Document.sameParameter q p = true)
    (location : String) :
    q.name = p.name ∧ (q.location = .str location ↔ p.location = .str location) := by
  unfold Document.sameParameter at same
  obtain ⟨name, place⟩ := (Bool.and_eq_true _ _).mp same
  refine ⟨beq_iff_eq.1 name, ?_⟩
  constructor
  · intro here
    rw [here] at place
    exact (str_same_iff _ _).1 place
  · intro here
    rw [here] at place
    exact (same_str_iff _ _).1 place

theorem mem_namesIn_setParameter {location name : String} {p : Parameter} {ps : List Parameter}
    (mem : name ∈ namesIn location (Document.setParameter p ps)) :
    name ∈ namesIn location ps ∨ (p.location = .str location ∧ name = p.name) := by
  induction ps with
  | nil =>
    rw [Document.setParameter, namesIn_cons] at mem
    split at mem
    · next here => exact .inr ⟨here, by simpa [namesIn] using mem⟩
    · simp [namesIn] at mem
  | cons q rest ih =>
    unfold Document.setParameter at mem
    split at mem
    · next same =>
      obtain ⟨named, located⟩ := located_iff_of_same same location
      rw [namesIn_cons, ← named] at mem
      rw [namesIn_cons]
      simp only [located]
      exact .inl mem
    · rw [namesIn_cons, List.mem_append] at mem
      rw [namesIn_cons, List.mem_append, or_assoc]
      exact mem.imp id ih

theorem nodup_namesIn_setParameter {location : String} {p : Parameter} {ps : List Parameter}
    (distinct : (namesIn location ps).Nodup) :
    (namesIn location (Document.setParameter p ps)).Nodup := by
  induction ps with
  | nil =>
    rw [Document.setParameter, namesIn_cons]
    split <;> simp [namesIn]
  | cons q rest ih =>
    unfold Document.setParameter
    split
    · next same =>
      obtain ⟨named, located⟩ := located_iff_of_same same location
      rw [namesIn_cons] at distinct ⊢
      simpa only [located, named] using distinct
    · next other =>
      rw [namesIn_cons] at distinct ⊢
      split
      · next here =>
        rw [if_pos here, List.singleton_append, List.nodup_cons] at distinct
        rw [List.singleton_append, List.nodup_cons]
        refine ⟨fun mem => ?_, ih distinct.2⟩
        rcases mem_namesIn_setParameter mem with listed | ⟨there, named⟩
        · exact distinct.1 listed
        · -- the two would stand for the same thing
          refine other ?_
          simp only [Document.sameParameter, named, here, there, beq_self_eq_true, Bool.true_and]
          exact (same_str_iff _ _).2 rfl
      · next elsewhere =>
        rw [if_neg elsewhere] at distinct
        exact ih distinct

/-- Of the parameters that an operation is read with, no two in one location have one name. -/
theorem nodup_namesIn_mergeParameters (location : String) (ps : List Parameter) :
    (namesIn location (Document.mergeParameters ps)).Nodup := by
  have step (merged : List Parameter) (distinct : (namesIn location merged).Nodup) :
      (namesIn location
        (ps.foldl (fun merged p => Document.setParameter p merged) merged)).Nodup := by
    induction ps generalizing merged with
    | nil => exact distinct
    | cons p rest ih => exact ih _ (nodup_namesIn_setParameter distinct)
  exact step [] List.nodup_nil

theorem namesAt_path_sublist (o : Operation) :
    (namesAt o .path).Sublist (namesIn "path" o.parameters) := by
  refine List.Sublist.map _ (List.monotone_filter_right _ fun p place => ?_)
  unfold placeOf? at place
  by_cases here : p.location = .str "path"
  · simpa using here
  · rw [if_neg here] at place
    split at place
    · simp at place
    · split at place <;> simp at place

theorem readOperation_parameters (source : Shared) (path method : String) (shared x : Spot) :
    Yields (fun o => ∃ ps, o.parameters = Document.mergeParameters ps)
      (Document.readOperation source path method shared x) := by
  refine Report.yields_bind fun sharedItems => Report.yields_bind fun ownItems =>
    Report.yields_bind fun parameters => .ite ?_ ?_
  all_goals
    refine Report.yields_bind fun body => Report.yields_bind fun answers =>
      Report.yields_bind fun responses => Report.yields_bind fun listedTags =>
      Report.yields_bind fun tags => ?_
    split <;> exact Report.yields_bind fun security => .pure ⟨_, rfl⟩

/-- **An operation that is read has no two path parameters of one name.** -/
theorem readOperation_path_nodup (source : Shared) (path method : String) (shared x : Spot) :
    Yields (fun o => (namesAt o .path).Nodup)
      (Document.readOperation source path method shared x) := by
  intro o ended
  obtain ⟨ps, merged⟩ := readOperation_parameters source path method shared x o ended
  refine (namesAt_path_sublist o).nodup ?_
  rw [merged]
  exact nodup_namesIn_mergeParameters "path" ps

/-! ## Methods of a class -/

/-- Where no two path parameters have one name, all of them are sent. -/
theorem Transmits.path_of_nodup {o : Operation} {inputs : Inputs} {text literal : String}
    {request : List String} (h : Transmits o inputs text literal request)
    (sorted : SortedFrom o inputs) (distinct : (namesAt o .path).Nodup) {i : MethodInput}
    (mem : i ∈ inputs.path) : SubstitutedIn literal o.path i.wireName i.identifier := by
  obtain ⟨before, after, split⟩ := List.append_of_mem mem
  refine h.path before i after split fun later => ?_
  rw [← sorted.path, split, List.map_append, List.map_cons] at distinct
  exact (List.nodup_cons.1 (List.nodup_append.1 distinct).2.1).1 later

/-- **No parameter of a method is dropped.** The raw method for an operation takes the parameters of
the operation, sorted by where they travel, and the overrides. Its body stores each query and header
parameter under its wire name before it sends the request, puts each path parameter in the place of
its placeholder (of those with one wire name the last), and sends the body parameter unless the verb
is GET or DELETE. -/
theorem classFor_transmits {scope : Scope} {width : Int} {security : List Value}
    {modules : List (String × String)} {tag : String} {operations : List Operation} {c : Class}
    (ended : (classFor scope width security modules tag operations).result = .ok c) :
    HasPairs (fun o raw _ => ∃ (inputs : Inputs) (text literal : String) (request : List String),
      (inputsOf scope o).result = .ok inputs ∧ SortedFrom o inputs ∧
        raw.signature.parameters = methodParameters inputs ∧ raw.body.text = .ok text ∧
        Transmits o inputs text literal request) operations c := by
  refine (classFor_pairs ended).mono ?_
  rintro o raw conv ⟨p, documentation, ⟨name, planned⟩, rfl, rfl⟩
  refine ⟨p.inputs, Text.unlines (bodyLines p.request), p.request.pathText, p.request.sentCall,
    planned.inputs, inputsOf_sortedFrom scope o _ planned.inputs, rfl,
    text_rawMethod p documentation, ?_⟩
  exact {
    asks := request_eq planned
    sends := has_request p
    path := fun _ _ _ split last => substituted_path planned split last
    query := fun _ mem => stores_query planned mem
    header := fun _ mem => stores_header planned mem }

/-- An operation with a parameter in each place and a body. -/
def patching : Operation where
  method := "PATCH"
  path := "/pets/\x7bid\x7d"
  operationId := .str "renamePet"
  tags := ["pets"]
  summary := .null
  description := .null
  parameters := [
    ⟨"id", .str "path", true, .null, ⟨.null, []⟩, false⟩,
    ⟨"dry-run", .str "query", false, .null, ⟨.null, []⟩, false⟩,
    ⟨"X-Trace", .str "header", false, .null, ⟨.null, []⟩, false⟩]
  body := some ⟨[("application/json", ⟨.map [(.str "type", .str "string")], []⟩)], true, .null⟩
  responses := []
  isDeprecated := false
  security := none

theorem classFor_transmits_of_patching :
    ∃ c, (classFor ⟨[], 64⟩ 80 [] [] "pets" [patching]).result = .ok c ∧
      HasPairs (fun o raw _ => ∃ (inputs : Inputs) (text literal : String) (request : List String),
        (inputsOf ⟨[], 64⟩ o).result = .ok inputs ∧ SortedFrom o inputs ∧
          raw.signature.parameters = methodParameters inputs ∧ raw.body.text = .ok text ∧
          Transmits o inputs text literal request) [patching] c := by
  have succeeds : (classFor ⟨[], 64⟩ 80 [] [] "pets" [patching]).result.isOk := by decide +kernel
  obtain ⟨c, ended⟩ := exists_eq_ok succeeds
  exact ⟨c, ended, classFor_transmits ended⟩

/-- The names of the parameters of the raw method for an operation, and its body. -/
def rawParts (o : Operation) : Except Failure (Option (List String × Option String)) :=
  (classFor ⟨[], 64⟩ 80 [] [] "pets" [o]).result.map fun c =>
    (c.methods[1]?).map fun raw =>
      (raw.signature.parameters.map (·.name), raw.body.text.toOption)

/-- With the verb GET, the body parameter stands in the signature and nowhere in the body. Of two
path parameters with one wire name, the first stands nowhere in the body. -/
theorem patching_drops_parameters :
    (∃ ls, rawParts { patching with method := "GET", parameters := [] } =
        .ok (some (["body", "initOverrides"], some (Text.unlines ls))) ∧
      ∀ line ∈ ls, ¬ "body".toList <:+: line.toList) ∧
    ∃ ls, rawParts { patching with
          parameters := patching.parameters.take 1 ++ patching.parameters.take 1, body := none } =
        .ok (some (["id", "id2", "initOverrides"], some (Text.unlines ls))) ∧
      ∀ line ∈ ls, ¬ "(id)".toList <:+: line.toList := by
  refine ⟨⟨[
    "const queryParameters: Record<string, any> = \x7b\x7d;",
    "",
    "const headerParameters: Record<string, string> = \x7b\x7d;",
    "",
    "const response = await this.request(",
    "  \x7b",
    "    path: \x60/pets/\x7bid\x7d\x60,",
    "    method: 'GET',",
    "    headers: headerParameters,",
    "    query: queryParameters,",
    "  \x7d,",
    "  initOverrides,",
    ");",
    "",
    "return new JSONApiResponse(response);"], ?_, ?_⟩, [
    "const queryParameters: Record<string, any> = \x7b\x7d;",
    "",
    "const headerParameters: Record<string, string> = \x7b\x7d;",
    "",
    "const response = await this.request(",
    "  \x7b",
    "    path: \x60/pets/$\x7bencodeURIComponent(String(id2))\x7d\x60,",
    "    method: 'PATCH',",
    "    headers: headerParameters,",
    "    query: queryParameters,",
    "  \x7d,",
    "  initOverrides,",
    ");",
    "",
    "return new JSONApiResponse(response);"], ?_, ?_⟩
  · decide +kernel
  · decide +kernel
  · decide +kernel
  · decide +kernel

end ClientGen.Client
