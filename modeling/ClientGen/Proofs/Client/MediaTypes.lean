import ClientGen.Client.ApiClass
import ClientGen.Proofs.Lists.Lookup
import ClientGen.Proofs.Lists.Pointwise
import ClientGen.Proofs.Text.Length

/-!
# JSON media types with parameters

The JSON schema of a body or a response is the one of the plain media type, or else the first of a
JSON format. A format is recognised whatever parameters stand behind it, but the plain media type is
looked up as it is written.

* **Which entry is chosen when parameters are put to media types** (`jsonPosition?_of_extends`): the
  same as before, unless the plain media type was there and has parameters now. Then the first JSON
  format is chosen, or nothing. Where the same entries are chosen, the methods for an operation are
  planned alike.
* `json_hidden_by_charset`: with a character set behind it, the only JSON of a response is not found,
  and the typed result becomes a void one.
-/

namespace ClientGen

/-! ### Media types with parameters -/

/-- Whether a media type is another one, as it is or with parameters behind it. -/
def HasParameters (mediaType extended : String) : Prop :=
  extended = mediaType ∨ ∃ parameters, extended = mediaType ++ ";" ++ parameters

theorem splitAt_append_semicolon (s t : String) :
    Text.splitAt ';' (s ++ ";" ++ t) = Text.splitAt ';' s ++ Text.splitAt ';' t := by
  have text : (s ++ ";" ++ t).toList = s.toList ++ ';' :: t.toList := by simp
  rw [Text.splitAt, text, Text.splitWhere_append_cons (by decide), List.map_append, Text.splitAt,
    Text.splitAt]

/-- A format is recognised whatever parameters it has. -/
theorem isJsonFormat_of_hasParameters {k k' : String} (h : HasParameters k k') :
    isJsonFormat k' = isJsonFormat k := by
  rcases h with rfl | ⟨parameters, rfl⟩
  · rfl
  · have some : Text.splitAt ';' k ≠ [] := by
      simpa [Text.splitAt] using Text.splitWhere_ne_nil _ _
    rw [isJsonFormat, isJsonFormat, splitAt_append_semicolon, List.head?_append_of_ne_nil _ some]

/-- With parameters, no media type is the plain one. -/
theorem eq_of_hasParameters_json {k : String} (h : HasParameters k jsonMediaType) :
    k = jsonMediaType := by
  rcases h with same | ⟨parameters, same⟩
  · exact same.symm
  · have absent : ';' ∉ jsonMediaType.toList := by decide
    rw [same] at absent
    simp at absent

/-! ### The entry of a content -/

namespace Content

/-- The media types of a content. -/
def mediaTypes (content : Content) : List String := content.map (·.1)

/-- Whether an entry has the plain media type of JSON. -/
def isPlainJson (entry : String × Spot) : Bool := entry.1 == jsonMediaType

/-- The position of the entry that the JSON schema is taken from. -/
def jsonPosition? (content : Content) : Option Nat :=
  match content.findIdx? isPlainJson with
  | some i => some i
  | none => content.findIdx? fun entry => isJsonFormat entry.1

theorem lookup_jsonMediaType (content : Content) : content.lookup jsonMediaType =
    (content.find? isPlainJson).map (·.2) := by
  induction content with
  | nil => rfl
  | cons entry rest ih =>
    rw [lookup_cons_eq, List.find?_cons, ih]
    by_cases here : jsonMediaType = entry.1
    · simp [isPlainJson, here]
    · have other : isPlainJson entry = false := beq_eq_false_iff_ne.2 (Ne.symm here)
      rw [if_neg here, other]

/-- The JSON schema is that at the position of the entry. -/
theorem json?_eq (content : Content) : content.json? =
    (content.jsonPosition?.bind fun i => (content.map (·.2))[i]?).map (·.value) := by
  rw [json?, jsonPosition?, lookup_jsonMediaType, List.find?_eq_bind_findIdx?_getElem?]
  cases plain : content.findIdx? isPlainJson with
  | none =>
    simp [List.find?_eq_bind_findIdx?_getElem?, Option.map_bind, Function.comp_def]
  | some i =>
    obtain ⟨inside, -, -⟩ := List.findIdx?_eq_some_iff_getElem.1 plain
    simp [inside]

theorem findIdx?_isPlainJson_isSome_iff (content : Content) :
    (content.findIdx? isPlainJson).isSome = true ↔ jsonMediaType ∈ content.mediaTypes := by
  simp [List.findIdx?_isSome, mediaTypes, isPlainJson]

/-- Whether a content is another one with parameters put to some of its media types. -/
def Extends (content extended : Content) : Prop :=
  List.Forall₂ (fun m m' => HasParameters m.1 m'.1 ∧ m'.2 = m.2) content extended

section Extends

variable {c c' : Content} (h : c.Extends c')

include h

theorem Extends.findIdx?_isJsonFormat :
    c'.findIdx? (fun m => isJsonFormat m.1) = c.findIdx? fun m => isJsonFormat m.1 := by
  induction h with
  | nil => rfl
  | cons first _ ih =>
    rw [List.findIdx?_cons, List.findIdx?_cons, ih, isJsonFormat_of_hasParameters first.1]

/-- The plain media type is where it was before. -/
theorem Extends.mem_mediaTypes (mem : jsonMediaType ∈ c'.mediaTypes) :
    jsonMediaType ∈ c.mediaTypes := by
  obtain ⟨m', listed, plain⟩ := List.mem_map.1 mem
  obtain ⟨m, listed, extended, -⟩ := exists_of_forall₂_right h listed
  rw [plain] at extended
  exact List.mem_map.2 ⟨m, listed, eq_of_hasParameters_json extended⟩

theorem Extends.findIdx?_isPlainJson (distinct : c.mediaTypes.Nodup)
    (kept : jsonMediaType ∈ c'.mediaTypes) :
    c'.findIdx? isPlainJson = c.findIdx? isPlainJson := by
  induction h with
  | nil => rfl
  | @cons m m' c c' first others ih =>
    obtain ⟨new, distinct⟩ := List.nodup_cons.1 distinct
    rw [List.findIdx?_cons, List.findIdx?_cons]
    by_cases here : m'.1 = jsonMediaType
    · have before : m.1 = jsonMediaType := eq_of_hasParameters_json (here ▸ first.1)
      simp [isPlainJson, here, before]
    · have later : jsonMediaType ∈ mediaTypes c' :=
        (List.mem_cons.1 kept).resolve_left (Ne.symm here)
      have plain : jsonMediaType ∈ mediaTypes c := Extends.mem_mediaTypes others later
      have new : m.1 ∉ mediaTypes c := new
      have before : m.1 ≠ jsonMediaType := fun same => new (same.symm ▸ plain)
      simp [isPlainJson, here, before, ih distinct later]

/-- Where the plain media type is there no more, the first JSON format is chosen. -/
theorem Extends.jsonPosition?_of_not_mem (lost : jsonMediaType ∉ c'.mediaTypes) :
    c'.jsonPosition? = c.findIdx? fun m => isJsonFormat m.1 := by
  rw [← findIdx?_isPlainJson_isSome_iff, Bool.not_eq_true, Option.isSome_eq_false_iff,
    Option.isNone_iff_eq_none] at lost
  rw [jsonPosition?, lost]
  exact h.findIdx?_isJsonFormat

/-- **The same entry is chosen** exactly if the plain media type is left as it is, where it is
there. -/
theorem Extends.jsonPosition?_eq_iff (distinct : c.mediaTypes.Nodup) :
    c'.jsonPosition? = c.jsonPosition? ↔
      (jsonMediaType ∈ c.mediaTypes → jsonMediaType ∈ c'.mediaTypes) := by
  by_cases kept : jsonMediaType ∈ c'.mediaTypes
  · refine iff_of_true ?_ fun _ => kept
    rw [jsonPosition?, jsonPosition?, h.findIdx?_isPlainJson distinct kept, h.findIdx?_isJsonFormat]
  · rw [h.jsonPosition?_of_not_mem kept, jsonPosition?]
    cases plain : c.findIdx? isPlainJson with
    | none =>
      have absent : jsonMediaType ∉ c.mediaTypes := by
        rw [← findIdx?_isPlainJson_isSome_iff, plain]
        exact Bool.false_ne_true
      exact iff_of_true rfl fun mem => absurd mem absent
    | some i =>
      have present : jsonMediaType ∈ c.mediaTypes := by
        rw [← findIdx?_isPlainJson_isSome_iff, plain]
        rfl
      refine iff_of_false (fun same => ?_) fun keeps => kept (keeps present)
      obtain ⟨inside, json, -⟩ := List.findIdx?_eq_some_iff_getElem.1 plain
      obtain ⟨_, isFormat, -⟩ := List.findIdx?_eq_some_iff_getElem.1 same
      rw [beq_iff_eq.1 json] at isFormat
      exact absurd isFormat (by decide)

theorem Extends.schemas_eq : c'.map (·.2) = c.map (·.2) := by
  induction h with
  | nil => rfl
  | cons first _ ih => rw [List.map_cons, List.map_cons, first.2, ih]

/-- The schema that is chosen is the same where the plain media type is left as it is. -/
theorem Extends.json?_eq (distinct : c.mediaTypes.Nodup)
    (kept : jsonMediaType ∈ c.mediaTypes → jsonMediaType ∈ c'.mediaTypes) :
    c'.json? = c.json? := by
  rw [Content.json?_eq, Content.json?_eq, (h.jsonPosition?_eq_iff distinct).2 kept, h.schemas_eq]

end Extends

end Content

/-! ### The methods for an operation -/

namespace Client

open Schema (Scope)

/-- Whether responses differ in nothing but their contents, and in these as `R` says. -/
def AnswersDiffer (R : Content → Content → Prop) (r r' : Response) : Prop :=
  R r.content r'.content ∧ r' = { r with content := r'.content }

/-- Whether operations differ in nothing but the contents of their bodies and responses, and in
these as `R` says. -/
structure DifferInContents (R : Content → Content → Prop) (o o' : Operation) : Prop where
  body : Option.Rel (fun b b' => R b.content b'.content ∧ b' = { b with content := b'.content })
    o.body o'.body
  responses : List.Forall₂ (fun r r' => r'.1 = r.1 ∧ AnswersDiffer R r.2 r'.2)
    o.responses o'.responses
  others : o' = { o with body := o'.body, responses := o'.responses }

section Differ

variable {R : Content → Content → Prop} {o o' : Operation}

/-- The responses that stand for success correspond: they are chosen by their status. -/
theorem successResponse_rel {rs rs' : List (String × Response)}
    (h : List.Forall₂ (fun r r' => r'.1 = r.1 ∧ AnswersDiffer R r.2 r'.2) rs rs') :
    Option.Rel (AnswersDiffer R) (successResponse rs) (successResponse rs') := by
  have related : List.Forall₂ (AnswersDiffer R) (rs.map (·.2)) (rs'.map (·.2)) := by
    rw [List.forall₂_map_left_iff, List.forall₂_map_right_iff]
    exact h.imp fun _ _ same => same.2
  have status : ∀ r r', AnswersDiffer R r r' → r'.status = r.status := by
    intro r r' differ
    rw [differ.2]
  have success : ∀ r r', AnswersDiffer R r r' → (r.isSuccess = true ↔ r'.isSuccess = true) := by
    intro r r' differ
    rw [Response.isSuccess, Response.isSuccess, status r r' differ]
  refine forall₂_head? (forall₂_mergeSort ?_ (List.rel_filter success related))
  intro r r' differ s s' differ'
  rw [status r r' differ, status s s' differ']

variable (same : ∀ c c', R c c' → c'.json? = c.json?) (h : DifferInContents R o o')

include same h

theorem DifferInContents.responseOf_eq (scope : Scope) :
    responseOf scope o' = responseOf scope o := by
  have method : o'.method = o.method := by rw [h.others]
  have chosen := successResponse_rel h.responses
  unfold responseOf
  rw [method]
  revert chosen
  generalize successResponse o.responses = r
  generalize successResponse o'.responses = r'
  rintro (differ | _)
  · dsimp only
    rw [same _ _ differ.1]
  · rfl

theorem DifferInContents.inputsOf_eq (scope : Scope) : inputsOf scope o' = inputsOf scope o := by
  have method : o'.method = o.method := by rw [h.others]
  have path : o'.path = o.path := by rw [h.others]
  have parameters : o'.parameters = o.parameters := by rw [h.others]
  have sorted (placeholders used : List String) (ps : List Parameter) :
      sortParameters scope o' placeholders used ps = sortParameters scope o placeholders used ps := by
    induction ps generalizing used with
    | nil => rfl
    | cons p rest ih => simp only [sortParameters, method, path, ih]
  have body (used : List String) : bodyInput scope o' used = bodyInput scope o used := by
    have bodies := h.body
    unfold bodyInput
    revert bodies
    generalize o.body = body
    generalize o'.body = body'
    rintro (⟨json, others⟩ | _)
    · next b b' =>
      have required : b'.isRequired = b.isRequired := by rw [others]
      have description : b'.description = b.description := by rw [others]
      dsimp only
      rw [same _ _ json, required, description]
    · rfl
  simp only [inputsOf, path, parameters, sorted, body]

/-- The method is planned alike, but for the operation that it is for. -/
theorem DifferInContents.planMethod_eq (scope : Scope) (width : Int) (security : List Value)
    (name : String) : planMethod scope width security name o' =
      (fun plan => { plan with operation := o' }) <$> planMethod scope width security name o := by
  have errors : o'.responses.any (fun r => isErrorStatus r.1) =
      o.responses.any fun r => isErrorStatus r.1 := by
    have answers := h.responses
    revert answers
    generalize o.responses = rs
    generalize o'.responses = rs'
    intro answers
    induction answers with
    | nil => rfl
    | cons first _ ih => rw [List.any_cons, List.any_cons, ih, first.1]
  have method : o'.method = o.method := by rw [h.others]
  have path : o'.path = o.path := by rw [h.others]
  have own : o'.security = o.security := by rw [h.others]
  have summary : o'.summary = o.summary := by rw [h.others]
  have description : o'.description = o.description := by rw [h.others]
  have deprecated : o'.isDeprecated = o.isDeprecated := by rw [h.others]
  simp only [planMethod, h.inputsOf_eq same, h.responseOf_eq same, errors, method, path, own,
    summary, description, deprecated, map_bind, map_pure]

end Differ

/-- Whether a content is the same, or `c'` in the place of `c`. -/
def IsReplaced (c c' d d' : Content) : Prop := d' = d ∨ d = c ∧ d' = c'

/-- **Parameters of media types do not matter, but for those of the plain media type of JSON.** In a
content with parameters put to its media types the same entry is chosen as before exactly if the
plain media type is left as it is, or is not there. Otherwise the first JSON format is chosen, or
nothing. Where the same entry is chosen, the method of an operation is planned alike with the one
content in the place of the other. -/
theorem jsonPosition?_of_extends {c c' : Content} (distinct : c.mediaTypes.Nodup)
    (isExtended : c.Extends c') :
    (c'.jsonPosition? = c.jsonPosition? ↔
      (jsonMediaType ∈ c.mediaTypes → jsonMediaType ∈ c'.mediaTypes)) ∧
    (jsonMediaType ∉ c'.mediaTypes →
      c'.jsonPosition? = c.findIdx? fun m => isJsonFormat m.1) ∧
    (c'.jsonPosition? = c.jsonPosition? →
      ∀ scope width security name o o', DifferInContents (IsReplaced c c') o o' →
        planMethod scope width security name o' =
          (fun plan => { plan with operation := o' }) <$>
            planMethod scope width security name o) := by
  have position := isExtended.jsonPosition?_eq_iff distinct
  refine ⟨position, isExtended.jsonPosition?_of_not_mem, ?_⟩
  intro same scope width security name o o' differ
  have replaced : ∀ d d', IsReplaced c c' d d' → d'.json? = d.json? := by
    rintro d _ (rfl | ⟨rfl, rfl⟩)
    · rfl
    · exact isExtended.json?_eq distinct (position.1 same)
  exact differ.planMethod_eq replaced scope width security name

/-- The content of a text. -/
def textContent (mediaType : String) : Content :=
  [(mediaType, ⟨.map [(.str "type", .str "string")], []⟩)]

/-- An operation that answers with text. -/
def naming (mediaType : String) : Operation where
  method := "GET"
  path := "/name"
  operationId := .str "getName"
  tags := ["pets"]
  summary := .null
  description := .null
  parameters := []
  body := none
  responses := [("200", ⟨"200", .null, textContent mediaType⟩)]
  isDeprecated := false
  security := none

/-- A format of JSON may have a character set behind it. -/
theorem jsonPosition?_of_extended_format :
    (textContent "text/x+json").mediaTypes.Nodup ∧
      (textContent "text/x+json").Extends (textContent "text/x+json; charset=utf-8") ∧
      (textContent "text/x+json; charset=utf-8").jsonPosition? = some 0 ∧
      planMethod ⟨[], 64⟩ 80 [] "getName" (naming "text/x+json; charset=utf-8") =
        (fun plan => { plan with operation := naming "text/x+json; charset=utf-8" }) <$>
          planMethod ⟨[], 64⟩ 80 [] "getName" (naming "text/x+json") := by
  have distinct : (textContent "text/x+json").mediaTypes.Nodup := List.nodup_singleton _
  have isExtended : (textContent "text/x+json").Extends (textContent "text/x+json; charset=utf-8") :=
    .cons ⟨.inr ⟨" charset=utf-8", by decide⟩, rfl⟩ .nil
  obtain ⟨position, -, plans⟩ := jsonPosition?_of_extends distinct isExtended
  have same := position.2 fun mem => absurd mem (by decide)
  refine ⟨distinct, isExtended, same.trans (by decide), plans same _ _ _ _ _ _ ?_⟩
  exact ⟨.none, .cons ⟨rfl, .inr ⟨rfl, rfl⟩, rfl⟩ .nil, rfl⟩

/-- With a character set behind it, the only JSON of a response is not found, and the method returns
nothing instead of text. -/
theorem json_hidden_by_charset :
    (textContent "application/json").Extends (textContent "application/json; charset=utf-8") ∧
      (textContent "application/json").jsonPosition? = some 0 ∧
      (textContent "application/json; charset=utf-8").jsonPosition? = none ∧
      (responseOf ⟨[], 64⟩ (naming "application/json")).result = .ok (.json, .string) ∧
      (responseOf ⟨[], 64⟩ (naming "application/json; charset=utf-8")).result =
        .ok (.void, .void) := by
  refine ⟨.cons ⟨.inr ⟨" charset=utf-8", by decide⟩, rfl⟩ .nil, by decide, by decide, ?_, ?_⟩
  · decide +kernel
  · decide +kernel

end Client

end ClientGen
