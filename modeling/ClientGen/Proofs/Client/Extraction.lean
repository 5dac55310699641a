import ClientGen.Proofs.Client.LocalNames
import ClientGen.Proofs.Lists.Pointwise
import ClientGen.Proofs.Name.Plain
import ClientGen.Proofs.Schema.Balanced
import ClientGen.Proofs.Schema.Notes

/-!
# How parameters are extracted

The extractor takes the parameters of an operation one by one. What it reads of each of them does not
depend on the others, apart from the identifier: so the parameters are read first and get their
identifiers after that (`runs_sort`), one by one and each distinct from those before
(`nodup_identified`). Where a parameter travels depends on where the document puts it and on the
placeholders of the path (`placeOf?_eq_path_iff` and the lemmas after it).

**Each parameter is an input in its place, or is left out with a warning** (`extract_sorts`), in every
context. Outside of schemas the extractor gives what `inputsOf` gives (`extract_eq`).
-/

namespace ClientGen.Client

open Report (Yields Tells tells_pure tells_ofText tells_ofOption bind_result_eq_ok_iff
  ofText_result_eq_ok_iff)
open Schema (Context Lowering Mapping Note Scope eachOf eachOf_result_eq_ok_iff lowerWithin
  warningsOf)
open Schema.Mapping (Runs RunsOnTop)

namespace Extractor

/-! ### Parameters apart from their identifiers -/

section Typed

variable (typed : Value → Lowering TypeExpr)

/-- The type of a parameter, where `typed` gives the types of schemas. -/
def typeWith (p : Parameter) : Lowering TypeExpr :=
  match p.schema with
  | .null => pure .string
  | schema => typed schema

/-- Reads a parameter: where it travels, and what it is before it gets an identifier of its own. -/
def readWith (o : Operation) (placeholders : List String) (p : Parameter) :
    Lowering (Option (Place × MethodInput)) := do
  let type ← typeWith typed p
  let default ← defaultOf p.schema
  match placeOf? placeholders p with
  | none =>
    drop o p
    return none
  | some place => return some (place, draft p place type default)

/-- The parameter that is the body, where `typed` gives the types of schemas. -/
def bodyWith (o : Operation) (used : List String) : Lowering (Option MethodInput) :=
  match o.body with
  | none => pure none
  | some body =>
    match body.content.json? with
    | none => pure none
    | some .null => pure none
    | some schema => do
      let type ← typed schema
      return some {
        wireName := bodyName
        identifier := Name.distinctFrom used (Name.valueName bodyName)
        type
        isRequired := body.isRequired
        description := body.description
        default := .null }

end Typed

/-- Gives parameters identifiers that differ from those `used` and from one another. -/
def identified (used : List String) : List (Place × MethodInput) → List (Place × MethodInput)
  | [] => []
  | (place, input) :: rest =>
    let identifier := Name.distinctFrom used input.identifier
    (place, { input with identifier }) :: identified (identifier :: used) rest

/-- The identifiers of parameters, the last one first. -/
def identifiersOf (sorted : List (Place × MethodInput)) : List String :=
  (sorted.map (·.2.identifier)).reverse

/-- The parameters of an operation, where `typed` gives the types of schemas. -/
def inputsWith (typed : Value → Lowering TypeExpr) (o : Operation) : Lowering Inputs := do
  let read ← eachOf (readWith typed o (Source.placeholderNames o.path)) o.parameters
  let sorted := identified [] (read.filterMap id)
  let body ← bodyWith typed o (identifiersOf sorted)
  return byPlace sorted body

section Runs

variable {scope : Scope} {c : Context} (o : Operation)

theorem runs_typeOf (p : Parameter) : Runs (typeOf scope p) c
    (typeWith (lowerWithin scope (Schema.Mapper.levelsLeft scope c)) p) := by
  unfold typeOf typeWith
  cases p.schema with
  | null => exact .pure _
  | _ => exact Schema.Mapper.runs_map scope c _

/-- Parameters are read one by one, and then get their identifiers. -/
theorem runs_sort (placeholders used : List String) (ps : List Parameter) :
    Runs (sort scope o placeholders used ps) c (do
      let read ← eachOf (readWith (lowerWithin scope (Schema.Mapper.levelsLeft scope c)) o
        placeholders) ps
      let sorted := identified used (read.filterMap id)
      return (sorted, identifiersOf sorted ++ used)) := by
  induction ps generalizing used with
  | nil => exact .pure _
  | cons p rest ih =>
    rw [eachOf, readWith, bind_assoc, bind_assoc]
    refine (runs_typeOf p).bind fun type => ?_
    rw [bind_assoc]
    refine (Runs.report _).bind fun default => ?_
    cases placeOf? placeholders p with
    | none =>
      dsimp only
      rw [bind_assoc]
      refine (Runs.report _).bind fun _ => ?_
      simpa using ih used
    | some place =>
      have others := (ih (Name.distinctFrom used (Name.valueName p.name) :: used)).bind
        fun r => .pure ((place, { draft p place type default with
          identifier := Name.distinctFrom used (Name.valueName p.name) }) :: r.1, r.2)
      simpa [identified, identifiersOf, draft] using others

theorem runs_body (used : List String) : Runs (body scope o used) c
    (bodyWith (lowerWithin scope (Schema.Mapper.levelsLeft scope c)) o used) := by
  unfold body bodyWith
  cases o.body with
  | none => exact .pure _
  | some b =>
    dsimp only
    cases b.content.json? with
    | none => exact .pure _
    | some schema =>
      cases schema with
      | null => exact .pure _
      | _ => exact (Schema.Mapper.runs_map scope c _).bind fun _ => .pure _

theorem runs_extract : Runs (extract scope o) c
    (inputsWith (lowerWithin scope (Schema.Mapper.levelsLeft scope c)) o) := by
  have steps : inputsWith (lowerWithin scope (Schema.Mapper.levelsLeft scope c)) o = (do
      let read ← eachOf (readWith (lowerWithin scope (Schema.Mapper.levelsLeft scope c)) o
        (Source.placeholderNames o.path)) o.parameters
      let sorted := identified [] (read.filterMap id)
      return (sorted, identifiersOf sorted ++ [])) >>= fun r => do
        let body ← bodyWith (lowerWithin scope (Schema.Mapper.levelsLeft scope c)) o r.2
        return byPlace r.1 body := by
    simp [inputsWith]
  rw [steps]
  exact (runs_sort o _ [] o.parameters).bind fun r => (runs_body o r.2).bind fun _ => .pure _

end Runs

/-! ### Operations that are in no schema -/

section Top

variable (scope : Scope) (o : Operation) {c : Context}

theorem runsOnTop_sort (placeholders used : List String) (ps : List Parameter) :
    RunsOnTop (sort scope o placeholders used ps) c
      (sortParameters scope o placeholders used ps) := by
  induction ps generalizing used with
  | nil => exact .pure _
  | cons p rest ih =>
    have type : RunsOnTop (typeOf scope p) c (typeOfParameter scope p) := by
      unfold typeOf typeOfParameter
      cases p.schema with
      | null => exact .pure _
      | _ => exact Schema.Mapper.runsOnTop_map scope _
    rw [sort, sortParameters]
    refine type.bind fun type => (RunsOnTop.report _).bind fun default => ?_
    cases placeOf? placeholders p with
    | none =>
      have dropped := (RunsOnTop.report (c := c) (drop o p)).bind fun _ => ih used
      rwa [drop, bind_assoc] at dropped
    | some place =>
      dsimp only [draft]
      exact (ih _).bind fun _ => .pure _

theorem runsOnTop_body (used : List String) :
    RunsOnTop (body scope o used) c (bodyInput scope o used) := by
  unfold body bodyInput
  cases o.body with
  | none => exact .pure _
  | some b =>
    dsimp only
    cases b.content.json? with
    | none => exact .pure _
    | some schema =>
      cases schema with
      | null => exact .pure _
      | _ => exact (Schema.Mapper.runsOnTop_map scope _).bind fun _ => .pure _

/-- Where no schema is being mapped, the extractor gives what is worked out without a context. -/
theorem extract_eq (stack : Schema.Stack) :
    extract scope o ⟨stack, 0⟩ = (inputsOf scope o, ⟨stack, 0⟩) := by
  have runs : RunsOnTop (extract scope o) ⟨stack, 0⟩ (inputsOf scope o) :=
    (runsOnTop_sort scope o _ [] o.parameters).bind fun sorted =>
      (runsOnTop_body scope o sorted.2).bind fun body => .pure _
  exact Prod.ext (runs.2 rfl) runs.1

end Top

/-! ### What is read of a parameter -/

/-- Whether an input of a method is made from a parameter that travels in some place. -/
structure IsMadeOf (scope : Scope) (c : Context) (place : Place) (p : Parameter) (i : MethodInput) :
    Prop where
  wireName : i.wireName = p.name
  type : (typeOf scope p c).1.result = .ok i.type
  isRequired : i.isRequired = (p.isRequired || decide (place = .path))
  description : i.description = p.description
  default : (defaultOf p.schema).result = .ok i.default
  identifier : ∃ taken, i.identifier = Name.distinctFrom taken (Name.valueName p.name)

section Reading

variable {scope : Scope} {c : Context} {o : Operation} {placeholders : List String}

/-- What a parameter is read as. -/
theorem readWith_ended {p : Parameter} {read : Option (Place × MethodInput)}
    (ended : (readWith (lowerWithin scope (Schema.Mapper.levelsLeft scope c)) o placeholders
      p).result = .ok read) :
    placeOf? placeholders p = none ∧ read = none ∨
      ∃ place type default, placeOf? placeholders p = some place ∧
        read = some (place, draft p place type default) ∧
        (typeOf scope p c).1.result = .ok type ∧ (defaultOf p.schema).result = .ok default := by
  obtain ⟨type, typed, ended⟩ := bind_result_eq_ok_iff.1 ended
  obtain ⟨default, given, ended⟩ := bind_result_eq_ok_iff.1 ended
  cases found : placeOf? placeholders p with
  | none =>
    rw [found] at ended
    obtain ⟨-, -, ended⟩ := bind_result_eq_ok_iff.1 ended
    exact .inl ⟨rfl, (Except.ok.inj ended).symm⟩
  | some place =>
    rw [found] at ended
    refine .inr ⟨place, type, default, rfl, (Except.ok.inj ended).symm, ?_, given⟩
    rw [runs_typeOf]
    exact typed

/-- The parameters that travel in a place are the inputs there, in the same order. -/
theorem isMadeOf_inPlace {ps : List Parameter} {read : List (Option (Place × MethodInput))}
    (each : List.Forall₂ (fun p r => (readWith (lowerWithin scope
      (Schema.Mapper.levelsLeft scope c)) o placeholders p).result = .ok r) ps read)
    (used : List String) (place : Place) :
    List.Forall₂ (IsMadeOf scope c place) (ps.filter fun p => placeOf? placeholders p = some place)
      (((identified used (read.filterMap id)).filter (·.1 = place)).map (·.2)) := by
  induction each generalizing used with
  | nil => exact .nil
  | @cons p r ps read first _ ih =>
    rcases readWith_ended first with ⟨nowhere, rfl⟩ | ⟨place', type, default, found, rfl, typed, given⟩
    · rw [List.filter_cons_of_neg (by simp [nowhere]), List.filterMap_cons_none rfl]
      exact ih used
    · have head : (some (place', draft p place' type default) :: read).filterMap id =
          (place', draft p place' type default) :: read.filterMap id := rfl
      rw [head, identified]
      by_cases same : place' = place
      · subst same
        rw [List.filter_cons_of_pos (by simp [found]), List.filter_cons_of_pos (by simp),
          List.map_cons]
        exact .cons ⟨rfl, typed, rfl, rfl, given, used, by dsimp only [draft]⟩ (ih _)
      · rw [List.filter_cons_of_neg (by simp [found, same]), List.filter_cons_of_neg (by simpa)]
        exact ih _

end Reading

/-! ### Identifiers -/

/-- The identifiers are given one after the other. -/
theorem identifiers_identified (used : List String) (read : List (Place × MethodInput)) :
    (identified used read).map (·.2.identifier) =
      Name.distinctNames used (read.map (·.2.identifier)) := by
  induction read generalizing used with
  | nil => rfl
  | cons i rest ih =>
    obtain ⟨place, input⟩ := i
    rw [identified, List.map_cons, ih, List.map_cons, Name.distinctNames]

theorem nodup_identified (read : List (Place × MethodInput)) :
    ((identified [] read).map (·.2.identifier)).Nodup := by
  rw [identifiers_identified]
  exact (Name.nodup_distinctNames [] _).1

/-! ### Warnings -/

/-- The channel of the extractor. -/
def channel : String := "oas_generator.typescript.parameter_extractor"

/-- The warnings that a step gives of its own, apart from those of the mapper. -/
def warnings {α : Type} (x : Lowering α) : List Warning :=
  (warningsOf x.notes).filter (·.channel = channel)

/-- Whether a warning says that a parameter is left out. -/
def IsDropped (o : Operation) (p : Parameter) (w : Warning) : Prop :=
  ∃ text, p.location.shown = .ok text ∧ w = .droppedParameter text p.name o.method o.path

section Warnings

variable {α β : Type}

theorem warnings_bind {x : Lowering α} {f : α → Lowering β} {a : α} (ended : x.result = .ok a) :
    warnings (x >>= f) = warnings x ++ warnings (f a) := Schema.warningsOn_bind ended

@[simp] theorem warnings_pure (a : α) : warnings (pure a : Lowering α) = [] := rfl

theorem warnings_of_tells {x : Lowering α} (h : Tells Schema.IsAboutSchema x) : warnings x = [] :=
  Schema.warningsOn_of_tells (h.mono fun _ => Schema.IsAboutSchema.isOff (by decide))

variable {typed : Value → Lowering TypeExpr} (quiet : ∀ v, Tells Schema.IsAboutSchema (typed v))
  {o : Operation} {placeholders : List String}

include quiet

theorem bodyWith_tells (used : List String) :
    Tells Schema.IsAboutSchema (bodyWith typed o used) := by
  unfold bodyWith
  split
  · exact tells_pure _
  · split
    · exact tells_pure _
    · exact tells_pure _
    · exact (quiet _).bind_pure _

/-- A parameter that travels nowhere is left out with a warning, and no other one. -/
theorem warnings_readWith {p : Parameter} {read : Option (Place × MethodInput)}
    (ended : (readWith typed o placeholders p).result = .ok read) :
    List.Forall₂ (IsDropped o) ([p].filter fun p => placeOf? placeholders p = none)
      (warnings (readWith typed o placeholders p)) := by
  have type_quiet : Tells Schema.IsAboutSchema (typeWith typed p) := by
    unfold typeWith
    split
    · exact tells_pure _
    · exact quiet _
  have default_quiet : Tells Schema.IsAboutSchema (defaultOf p.schema) := by
    unfold defaultOf
    split
    · exact tells_pure _
    · exact (tells_ofOption _).bind_pure _
  obtain ⟨type, typed, ended⟩ := bind_result_eq_ok_iff.1 ended
  obtain ⟨default, given, ended⟩ := bind_result_eq_ok_iff.1 ended
  rw [readWith, warnings_bind typed, warnings_bind given, warnings_of_tells type_quiet,
    warnings_of_tells default_quiet, List.nil_append, List.nil_append]
  cases found : placeOf? placeholders p with
  | none =>
    rw [found] at ended
    obtain ⟨⟨⟩, dropped, -⟩ := bind_result_eq_ok_iff.1 ended
    obtain ⟨text, shown, -⟩ := bind_result_eq_ok_iff.1 dropped
    have given : warnings (drop o p) = [.droppedParameter text p.name o.method o.path] := by
      rw [drop, warnings_bind shown]
      rfl
    dsimp only
    rw [warnings_bind dropped, given, List.filter_cons_of_pos (by simp [found])]
    exact .cons ⟨text, ofText_result_eq_ok_iff.1 shown, rfl⟩ .nil
  | some place =>
    rw [List.filter_cons_of_neg (by simp [found])]
    exact .nil

theorem warnings_eachOf {ps : List Parameter} {read : List (Option (Place × MethodInput))}
    (ended : (eachOf (readWith typed o placeholders) ps).result = .ok read) :
    List.Forall₂ (IsDropped o) (ps.filter fun p => placeOf? placeholders p = none)
      (warnings (eachOf (readWith typed o placeholders) ps)) := by
  induction ps generalizing read with
  | nil => exact .nil
  | cons p rest ih =>
    obtain ⟨r, first, ended⟩ := bind_result_eq_ok_iff.1 ended
    obtain ⟨others, read, -⟩ := bind_result_eq_ok_iff.1 ended
    rw [eachOf, warnings_bind first, warnings_bind read, ← List.singleton_append,
      List.filter_append]
    refine List.rel_append (warnings_readWith quiet first) ?_
    rw [warnings_pure, List.append_nil]
    exact ih read

end Warnings

/-! ### Places -/

section Places

variable {placeholders : List String} {p : Parameter}

/-- The locations of parameters that travel somewhere. -/
def locations : List Key := [.str "path", .str "query", .str "header"]

theorem placeOf?_eq_path_iff : placeOf? placeholders p = some .path ↔
    p.location = .str "path" ∧ p.name ∈ placeholders := by
  unfold placeOf?
  grind

theorem placeOf?_eq_query_iff : placeOf? placeholders p = some .query ↔
    p.location = .str "query" ∨ p.location = .str "path" ∧ p.name ∉ placeholders := by
  unfold placeOf?
  grind

theorem placeOf?_eq_header_iff : placeOf? placeholders p = some .header ↔
    p.location = .str "header" := by
  unfold placeOf?
  grind

theorem placeOf?_eq_none_iff : placeOf? placeholders p = none ↔ p.location ∉ locations := by
  unfold placeOf? locations
  grind

end Places

/-- What is extracted from an operation in a context: the inputs in each place are the parameters
that travel there, in the order of the operation. -/
structure Extracts (scope : Scope) (c : Context) (o : Operation) (inputs : Inputs) : Prop where
  path : List.Forall₂ (IsMadeOf scope c .path) (o.parameters.filter fun p =>
    p.location = .str "path" ∧ p.name ∈ Source.placeholderNames o.path) inputs.path
  required : ∀ i ∈ inputs.path, i.isRequired = true
  query : List.Forall₂ (IsMadeOf scope c .query) (o.parameters.filter fun p =>
    p.location = .str "query" ∨
      p.location = .str "path" ∧ p.name ∉ Source.placeholderNames o.path) inputs.query
  header : List.Forall₂ (IsMadeOf scope c .header)
    (o.parameters.filter fun p => p.location = .str "header") inputs.header
  distinct : (inputs.inOrder.map (·.identifier)).Nodup
  identifiers : ∀ i ∈ inputs.inOrder,
    Name.IsPlainIdentifier i.identifier ∧ i.identifier ∉ Name.reservedWords

/-- A name that a parameter asks for may be given to it, with a number or without. -/
theorem isPlainIdentifier_and_not_reserved (taken : List String) (s : String) :
    Name.IsPlainIdentifier (Name.distinctFrom taken (Name.valueName s)) ∧
      Name.distinctFrom taken (Name.valueName s) ∉ Name.reservedWords :=
  ⟨(Name.isPlainIdentifier_valueName s).distinctFrom taken,
    Name.distinctFrom_not_reserved (Name.valueName_not_reserved s) taken⟩

theorem bodyWith_identifier {typed : Value → Lowering TypeExpr} {o : Operation}
    (used : List String) : Yields (fun body => ∀ i ∈ body,
      i.identifier = Name.distinctFrom used (Name.valueName bodyName)) (bodyWith typed o used) := by
  unfold bodyWith
  split
  · exact .pure nofun
  · split
    · exact .pure nofun
    · exact .pure nofun
    · exact Report.yields_bind fun type => .pure fun i same => by rw [← Option.some.inj same]

theorem extracts_byPlace {scope : Scope} {c : Context} {o : Operation}
    {read : List (Option (Place × MethodInput))} {body : Option MethodInput}
    (each : List.Forall₂ (fun p r => (readWith (lowerWithin scope
      (Schema.Mapper.levelsLeft scope c)) o (Source.placeholderNames o.path) p).result = .ok r)
      o.parameters read)
    (last : ∀ i ∈ body, i.identifier = Name.distinctFrom
      (identifiersOf (identified [] (read.filterMap id))) (Name.valueName bodyName)) :
    Extracts scope c o (byPlace (identified [] (read.filterMap id)) body) := by
  have inPlace := isMadeOf_inPlace each []
  have named {place : Place} {ps : List Parameter} {is : List MethodInput}
      (made : List.Forall₂ (IsMadeOf scope c place) ps is) : ∀ i ∈ is,
      Name.IsPlainIdentifier i.identifier ∧ i.identifier ∉ Name.reservedWords := by
    intro i mem
    obtain ⟨p, -, ip⟩ := exists_of_forall₂_right made mem
    obtain ⟨taken, name⟩ := ip.identifier
    rw [name]
    exact isPlainIdentifier_and_not_reserved taken p.name
  constructor
  case path => simpa only [byPlace, placeOf?_eq_path_iff] using inPlace .path
  case query => simpa only [byPlace, placeOf?_eq_query_iff] using inPlace .query
  case header => simpa only [byPlace, placeOf?_eq_header_iff] using inPlace .header
  case required =>
    intro i mem
    obtain ⟨p, -, ip⟩ := exists_of_forall₂_right (inPlace .path) mem
    simp [ip.isRequired]
  case distinct =>
    have perm := (perm_places (identified [] (read.filterMap id))).append_right body.toList
    refine ((perm.map (·.identifier)).nodup_iff).2 ?_
    rw [List.map_append, List.nodup_append', List.map_map]
    refine ⟨nodup_identified _, ?_, ?_⟩
    · cases body <;> simp
    · intro name old mem
      cases body with
      | none => exact absurd mem List.not_mem_nil
      | some i =>
        rw [Option.toList_some, List.map_singleton, List.mem_singleton, last i rfl] at mem
        rw [mem] at old
        exact Name.distinctFrom_not_mem _ _ (List.mem_reverse.2 old)
  case identifiers =>
    intro i mem
    rcases List.mem_append.1 mem with mem | mem
    · rcases List.mem_append.1 mem with mem | mem
      · rcases List.mem_append.1 mem with mem | mem
        · exact named (inPlace .path) i mem
        · exact named (inPlace .query) i mem
      · exact named (inPlace .header) i mem
    · rw [last i (Option.mem_toList.1 mem)]
      exact isPlainIdentifier_and_not_reserved _ bodyName

/-- **How parameters are extracted.** In every context in which the parameters of an operation are
extracted, the inputs in the path are the parameters in the path that it has a placeholder for, all
of them required; those in the query are the query parameters and the others in the path, and those
in the headers are the header parameters. Each of them is in the order of the operation. Every other
parameter is left out with one warning. The identifiers of all inputs, the body included, are
distinct, plain and not reserved. -/
theorem extract_sorts {scope : Scope} {c : Context} {o : Operation} {inputs : Inputs}
    (ended : (extract scope o c).1.result = .ok inputs) :
    Extracts scope c o inputs ∧
    List.Forall₂ (IsDropped o) (o.parameters.filter fun p => p.location ∉ locations)
      (warnings (extract scope o c).1) ∧
    (extract scope o c).2 = c := by
  have quiet (v : Value) : Tells Schema.IsAboutSchema
      (lowerWithin scope (Schema.Mapper.levelsLeft scope c) v) :=
    Schema.lowerWithin_tells scope _ v
  rw [runs_extract] at ended ⊢
  obtain ⟨read, reading, ended⟩ := bind_result_eq_ok_iff.1 ended
  obtain ⟨body, found, ended⟩ := bind_result_eq_ok_iff.1 ended
  cases Except.ok.inj ended
  refine ⟨extracts_byPlace (eachOf_result_eq_ok_iff.1 reading) (bodyWith_identifier _ body found),
    ?_, rfl⟩
  change List.Forall₂ _ _ (warnings (eachOf _ _ >>= _))
  rw [warnings_bind reading, warnings_bind found, warnings_of_tells (bodyWith_tells quiet _),
    warnings_pure, List.append_nil, List.append_nil]
  simpa only [placeOf?_eq_none_iff] using warnings_eachOf quiet reading

/-- An operation with two parameters of one name, one in the path without a placeholder, one with a
reserved name, and a cookie. -/
def visiting : Operation := { patching with
  parameters := [
    ⟨"id", .str "query", false, .null, ⟨.null, []⟩, false⟩,
    ⟨"id", .str "path", true, .null, ⟨.map [(.str "type", .str "integer")], []⟩, false⟩,
    ⟨"session", .str "cookie", true, .null, ⟨.null, []⟩, false⟩,
    ⟨"region", .str "path", true, .null, ⟨.null, []⟩, false⟩,
    ⟨"class", .str "header", false, .null, ⟨.null, []⟩, false⟩] }

theorem extract_sorts_of_visiting :
    ∃ inputs, (extract ⟨[], 64⟩ visiting {}).1.result = .ok inputs ∧
      inputs.inOrder.map (·.identifier) = ["id2", "id", "region", "class_", "body"] ∧
      Extracts ⟨[], 64⟩ {} visiting inputs ∧
      List.Forall₂ (IsDropped visiting) (visiting.parameters.filter fun p => p.location ∉ locations)
        (warnings (extract ⟨[], 64⟩ visiting {}).1) := by
  have names : (extract ⟨[], 64⟩ visiting {}).1.result.map
      (fun inputs => inputs.inOrder.map (·.identifier)) =
      .ok ["id2", "id", "region", "class_", "body"] := by decide +kernel
  cases ended : (extract ⟨[], 64⟩ visiting {}).1.result with
  | error e =>
    rw [ended] at names
    cases names
  | ok inputs =>
    rw [ended] at names
    obtain ⟨extracts, dropped, -⟩ := extract_sorts ended
    exact ⟨inputs, rfl, Except.ok.inj names, extracts, dropped⟩

/-- Only the cookie is left out. -/
example : warnings (extract ⟨[], 64⟩ visiting {}).1 =
    [.droppedParameter "cookie" "session" "PATCH" "/pets/\x7bid\x7d"] := by decide +kernel

end Extractor

end ClientGen.Client
