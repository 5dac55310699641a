import ClientGen.Document.Unrolled
import ClientGen.Proofs.Client.GivenNames
import ClientGen.Proofs.Client.Grouping
import ClientGen.Proofs.Client.Methods
import ClientGen.Proofs.Schema.Returns

/-!
# The classes of a document

The classes of a document are built exactly if the methods for each of its operations are
(`returns_apiClasses_iff`), which comes down to single values (`IsBuildable`): the types of its
schemas, and fields that have to be text.

**There is one class for each tag, and no operation is lost or duplicated** (`apiClasses_by_tag`):
operations of a document differ in their paths or verbs, so none is taken for another one when they
are grouped by their tags. But a document may be read and have no classes, since one schema that has
no type is enough (`apiClasses_fails_of_requiredObject`).
-/

namespace ClientGen.Client

open Report (Returns Yields returns_pure returns_bind_iff_and returns_bind_iff_and_of_yields
  returns_bind_pure_iff returns_ofOption_iff returns_ofText_iff returns_ite_malformed_iff
  not_returns_malformed)
open Schema (Scope)

/-! ### Values that can be used -/

theorem returns_lower_null (scope : Scope) : Returns (Schema.lower scope .null) := by
  unfold Schema.lower
  cases scope.budget <;> exact returns_pure _

/-- Whether a descriptive field can be a line of documentation. -/
def isLine : Value → Bool
  | .str _ => true
  | .other (.bytes content) => content.all isBlankByte
  | v => !v.truthy

/-- Whether a parameter can be read: its schema has a type and may have a default, and its location
has a text where it is left out. -/
structure IsReadable (scope : Scope) (p : Parameter) : Prop where
  typed : Returns (Schema.lower scope p.schema)
  default : p.schema.truthy = true → p.schema.isMap = true
  shown : p.location ∉ Extractor.locations → ∃ text, p.location.shown = .ok text

/-- Whether the methods for an operation can be built. -/
structure IsBuildable (scope : Scope) (o : Operation) : Prop where
  named : o.operationId.truthy = true → o.operationId.str?.isSome = true
  parameters : ∀ p ∈ o.parameters, IsReadable scope p
  body : ∀ b ∈ o.body, ∀ schema ∈ b.content.json?, Returns (Schema.lower scope schema)
  response : ∀ r ∈ successResponse o.responses, Text.upper o.method ≠ "DELETE" →
    ∀ schema ∈ r.content.json?, Returns (Schema.lower scope schema)
  summary : isLine o.summary = true
  description : isLine o.description = true

section Steps

variable {scope : Scope}

theorem returns_typeOfParameter_iff {p : Parameter} :
    Returns (typeOfParameter scope p) ↔ Returns (Schema.lower scope p.schema) := by
  unfold typeOfParameter
  split
  · next null => rw [null]; exact iff_of_true (returns_pure _) (returns_lower_null scope)
  · exact Iff.rfl

theorem returns_defaultOf_iff {schema : Value} :
    Returns (defaultOf schema) ↔ (schema.truthy = true → schema.isMap = true) := by
  unfold defaultOf
  cases schema.truthy with
  | false => exact iff_of_true (returns_pure _) nofun
  | true =>
    simp only [Bool.not_true, Bool.false_eq_true, if_false, true_imp_iff]
    rw [returns_bind_pure_iff, returns_ofOption_iff]
    rfl

theorem returns_warn (w : Warning) : Returns (Schema.warn w) := ⟨(), rfl⟩

theorem returns_sortParameters_iff (o : Operation) (placeholders used : List String)
    {parameters : List Parameter} :
    Returns (sortParameters scope o placeholders used parameters) ↔
      ∀ p ∈ parameters, IsReadable scope p := by
  induction parameters generalizing used with
  | nil => exact iff_of_true (returns_pure _) (List.forall_mem_nil _)
  | cons p rest ih =>
    rw [List.forall_mem_cons, sortParameters]
    cases found : placeOf? placeholders p with
    | none =>
      dsimp only
      refine (returns_bind_iff_and fun _ => returns_bind_iff_and fun _ => returns_bind_iff_and
        fun _ => (returns_bind_iff_and fun _ => ih used).trans
          (and_iff_right (returns_warn _))).trans ?_
      rw [returns_typeOfParameter_iff, returns_defaultOf_iff, returns_ofText_iff]
      have left := Extractor.placeOf?_eq_none_iff.1 found
      constructor
      · rintro ⟨typed, default, shown, others⟩
        exact ⟨⟨typed, default, fun _ => shown⟩, others⟩
      · rintro ⟨⟨typed, default, shown⟩, others⟩
        exact ⟨typed, default, shown left, others⟩
    | some place =>
      dsimp only
      refine (returns_bind_iff_and fun _ => returns_bind_iff_and fun _ =>
        returns_bind_pure_iff.trans (ih _)).trans ?_
      rw [returns_typeOfParameter_iff, returns_defaultOf_iff]
      have kept : ¬ p.location ∉ Extractor.locations := fun left => by
        rw [Extractor.placeOf?_eq_none_iff.2 left] at found
        cases found
      constructor
      · rintro ⟨typed, default, others⟩
        exact ⟨⟨typed, default, fun left => absurd left kept⟩, others⟩
      · rintro ⟨⟨typed, default, -⟩, others⟩
        exact ⟨typed, default, others⟩

theorem returns_bodyInput_iff {o : Operation} (used : List String) :
    Returns (bodyInput scope o used) ↔
      ∀ b ∈ o.body, ∀ schema ∈ b.content.json?, Returns (Schema.lower scope schema) := by
  unfold bodyInput
  cases o.body with
  | none => exact iff_of_true (returns_pure _) nofun
  | some b =>
    simp only [Option.mem_def, Option.some.injEq, forall_eq']
    cases b.content.json? with
    | none => exact iff_of_true (returns_pure _) nofun
    | some schema =>
      simp only [Option.some.injEq, forall_eq']
      split
      · next none => cases none
      · next null =>
        obtain rfl := Option.some.inj null
        exact iff_of_true (returns_pure _) (returns_lower_null scope)
      · next same =>
        obtain rfl := Option.some.inj same
        exact returns_bind_pure_iff

theorem returns_inputsOf_iff {o : Operation} :
    Returns (inputsOf scope o) ↔ (∀ p ∈ o.parameters, IsReadable scope p) ∧
      ∀ b ∈ o.body, ∀ schema ∈ b.content.json?, Returns (Schema.lower scope schema) := by
  unfold inputsOf
  refine (returns_bind_iff_and fun _ => returns_bind_pure_iff.trans
    (returns_bodyInput_iff _)).trans ?_
  rw [returns_sortParameters_iff]

theorem returns_responseOf_iff {o : Operation} :
    Returns (responseOf scope o) ↔ ∀ r ∈ successResponse o.responses,
      Text.upper o.method ≠ "DELETE" → ∀ schema ∈ r.content.json?,
        Returns (Schema.lower scope schema) := by
  unfold responseOf
  cases successResponse o.responses with
  | none => exact iff_of_true (returns_pure _) nofun
  | some r =>
    simp only [Option.mem_def, Option.some.injEq, forall_eq']
    by_cases deletes : Text.upper o.method = "DELETE"
    · simp only [deletes, beq_self_eq_true, ne_eq, not_true_eq_false, false_imp_iff, iff_true]
      exact returns_pure _
    · simp only [beq_eq_false_iff_ne.2 deletes, ne_eq, deletes, not_false_eq_true, true_imp_iff]
      cases r.content.json? with
      | none => exact iff_of_true (returns_pure _) nofun
      | some schema =>
        simp only [Option.some.injEq, forall_eq']
        split
        · next none => cases none
        · next none => cases none
        · next null =>
          obtain rfl := Option.some.inj null
          exact iff_of_true (returns_pure _) (returns_lower_null scope)
        · next same =>
          obtain rfl := Option.some.inj same
          exact returns_bind_pure_iff

theorem returns_documentationLine_iff {v : Value} :
    Returns (documentationLine v) ↔ isLine v = true := by
  unfold documentationLine
  split
  · exact iff_of_true (returns_pure _) rfl
  · next content => exact returns_ite_malformed_iff
  · next text bytes =>
    have plain : isLine v = !v.truthy := by
      unfold isLine
      split
      · exact absurd rfl (text _)
      · exact absurd rfl (bytes _)
      · rfl
    rw [plain]
    cases v.truthy with
    | true => exact iff_of_false not_returns_malformed Bool.false_ne_true
    | false => exact iff_of_true (returns_pure _) rfl

theorem returns_documentationOf_iff {p : MethodPlan} : Returns (documentationOf p) ↔
    isLine p.operation.summary = true ∧ isLine p.operation.description = true := by
  refine (returns_bind_iff_and fun _ => returns_bind_pure_iff.trans
    returns_documentationLine_iff).trans ?_
  rw [returns_documentationLine_iff]

/-- An operation has a name for its methods if its identifier is text or counts as absent. -/
theorem exists_methodName?_iff {o : Operation} :
    (∃ name, methodName? o.operationId o.method o.path = some name) ↔
      (o.operationId.truthy = true → o.operationId.str?.isSome = true) := by
  simp only [methodName?_eq_some_iff]
  cases o.operationId.truthy with
  | false => exact iff_of_true ⟨_, _, rfl, rfl⟩ nofun
  | true =>
    simp only [if_true, true_imp_iff, Option.isSome_iff_exists]
    exact ⟨fun ⟨_, text, read, _⟩ => ⟨text, read⟩, fun ⟨text, read⟩ => ⟨_, text, read, rfl⟩⟩

theorem returns_planMethod_iff (width : Int) (security : List Value) (name : String)
    {o : Operation} : Returns (planMethod scope width security name o) ↔
      Returns (inputsOf scope o) ∧ Returns (responseOf scope o) :=
  returns_bind_iff_and fun _ => returns_bind_pure_iff

theorem planMethod_operation (width : Int) (security : List Value) (name : String) (o : Operation) :
    Yields (fun p => p.operation = o) (planMethod scope width security name o) :=
  Report.yields_bind fun _ => Report.yields_bind fun _ => .pure rfl

theorem returns_notice (owner wanted given : String) : Returns (notice owner wanted given) := by
  unfold notice
  split
  · exact returns_warn _
  · exact returns_pure _

theorem returns_methodsAfter_iff (width : Int) (security : List Value) (owner : String)
    (used : List String) {operations : List Operation} :
    Returns (methodsAfter scope width security owner used operations) ↔
      ∀ o ∈ operations, IsBuildable scope o := by
  induction operations generalizing used with
  | nil => exact iff_of_true (returns_pure _) (List.forall_mem_nil _)
  | cons o rest ih =>
    rw [List.forall_mem_cons]
    by_cases asked : ∃ name, methodName? o.operationId o.method o.path = some name
    · have named := exists_methodName?_iff.1 asked
      obtain ⟨wanted, asked'⟩ := asked
      rw [methodsAfter_eq asked']
      dsimp only
      refine (returns_bind_iff_and fun _ => returns_bind_iff_and_of_yields
        (planMethod_operation width security _ o) fun plan same =>
          (returns_bind_iff_and fun documentation => returns_bind_pure_iff.trans (ih _)).trans
            (by rw [returns_documentationOf_iff, same])).trans ?_
      rw [returns_planMethod_iff, returns_inputsOf_iff, returns_responseOf_iff,
        and_iff_right (returns_notice owner wanted _), ← and_assoc]
      refine and_congr_left' ⟨?_, fun h => ?_⟩
      · rintro ⟨⟨⟨parameters, body⟩, response⟩, summary, description⟩
        exact ⟨named, parameters, body, response, summary, description⟩
      · exact ⟨⟨⟨h.parameters, h.body⟩, h.response⟩, h.summary, h.description⟩
    · have unnamed : methodName? o.operationId o.method o.path = none :=
        Option.eq_none_iff_forall_ne_some.2 fun name found => asked ⟨name, found⟩
      refine iff_of_false ?_ fun h => asked (exists_methodName?_iff.2 h.1.named)
      rw [methodsAfter, unnamed]
      exact not_returns_malformed

theorem returns_classFor_iff (width : Int) (security : List Value)
    (modules : List (String × String)) (tag : String) {operations : List Operation} :
    Returns (classFor scope width security modules tag operations) ↔
      ∀ o ∈ operations, IsBuildable scope o :=
  returns_bind_pure_iff.trans (returns_methodsAfter_iff width security _ _)

theorem returns_classesFor_iff (width : Int) (security : List Value)
    (modules : List (String × String)) {groups : Groups} :
    Returns (classesFor scope width security modules groups) ↔
      ∀ g ∈ groups, ∀ o ∈ g.2, IsBuildable scope o := by
  induction groups with
  | nil => exact iff_of_true (returns_pure _) (List.forall_mem_nil _)
  | cons g rest ih =>
    rw [List.forall_mem_cons, classesFor]
    refine (returns_bind_iff_and fun _ => returns_bind_pure_iff.trans ih).trans ?_
    rw [returns_classFor_iff]

/-- The classes of a document are built exactly if the methods for each operation are. -/
theorem returns_apiClasses_iff (d : Document) (width : Int) (modules : List (String × String)) :
    Returns (apiClasses d scope width modules) ↔ ∀ o ∈ d.operations, IsBuildable scope o := by
  rw [apiClasses, returns_classesFor_iff]
  constructor
  · intro all o mem
    obtain ⟨tag, carried⟩ := exists_mem_tagsOf o
    exact all (tag, tagged d.operations tag) (mem_operationsByTag_iff.2 ⟨⟨o, mem, carried⟩, rfl⟩) o
      (mem_tagged_iff.2 ⟨mem, carried⟩)
  · rintro all ⟨tag, operations⟩ listed o mem
    obtain ⟨-, rfl⟩ := mem_operationsByTag_iff.1 listed
    exact all o (mem_tagged_iff.1 mem).1

end Steps

/-! ### The classes of a document -/

/-- Whether groups are those of the tags of operations, in ascending order of the tags, and each has
the operations that carry its tag, in their order. -/
structure AreByTag (operations : List Operation) (groups : Groups) : Prop where
  ascending : (groups.map (·.1)).Pairwise fun s t => Text.lt s t = true
  tags : ∀ tag, tag ∈ groups.map (·.1) ↔ ∃ o ∈ operations, tag ∈ tagsOf o
  members : ∀ g ∈ groups, g.2 = operations.filter fun o => g.1 ∈ tagsOf o

theorem areByTag_operationsByTag (d : Document) : AreByTag d.operations (operationsByTag d) := by
  have tags : (operationsByTag d).map (·.1) = sortedNames (d.operations.flatMap tagsOf) := by
    simp [operationsByTag, Function.comp_def]
  refine ⟨?_, fun tag => ?_, fun g mem => ?_⟩
  · rw [tags]
    exact pairwise_sortedNames _
  · rw [tags, mem_sortedNames, List.mem_flatMap]
  · rw [(mem_operationsByTag_iff.1 mem).2, tagged]
    exact List.filter_congr fun o _ => by rw [List.contains_eq_mem]

/-- The operations of a document whose schemas are written out differ as before. -/
theorem nodup_operations_unrolled {source : Shared} {d : Document}
    (ended : (Document.ofShared source).result = .ok d) (depth : Nat) :
    ((d.unrolled depth).operations.map fun o => (o.path, o.method)).Nodup := by
  have differ := (Document.operations_differ source ended).1
  unfold Document.unrolled
  split
  · rw [Document.operations_mapRoots, List.map_map]
    exact differ
  · exact differ

/-- **The classes of a document.** Whatever way operations are compared when they are grouped by
their tags, as long as one counts as another only if the two have the same path and verb, no
operation of a document is taken for another one: the groups are those of the tags, in ascending
order, with the operations that carry each of them, in document order. The classes are built exactly
if the methods for each operation are. Then there is one for each tag, and it has the constructor
and one pair of methods for each operation that carries the tag. -/
theorem apiClasses_by_tag {source : Shared} {d : Document}
    (ended : (Document.ofShared source).result = .ok d) (depth : Nat) :
    let e := d.unrolled depth
    (∀ same : Operation → Operation → Bool, (∀ o ∈ e.operations, same o o = true) →
      (∀ o o', same o o' = true → o.path = o'.path ∧ o.method = o'.method) →
      groupsByTag same e.operations = operationsByTag e) ∧
    AreByTag e.operations (operationsByTag e) ∧ e.operations.Nodup ∧
    ∀ (scope : Scope) (width : Int) (modules : List (String × String)),
      (Returns (apiClasses e scope width modules) ↔ ∀ o ∈ e.operations, IsBuildable scope o) ∧
      ∀ classes, (apiClasses e scope width modules).result = .ok classes →
        List.Forall₂ (fun (g : String × List Operation) c => c.name = className g.1 ∧
          HasPairs (FromPlan fun o p => ∃ name, Plans scope width name o p) g.2 c)
          (operationsByTag e) classes := by
  intro e
  have differ := nodup_operations_unrolled ended depth
  refine ⟨fun same own only => ?_, areByTag_operationsByTag e, differ.of_map,
    fun scope width modules => ⟨returns_apiClasses_iff e width modules, fun classes built => ?_⟩⟩
  · refine groupsByTag_eq ⟨own, (List.pairwise_map.1 differ).imp fun other => ?_⟩
    rw [Bool.eq_false_iff]
    intro counts
    obtain ⟨path, method⟩ := only _ _ counts
    exact other (Prod.ext path method)
  · refine (Package.classesFor_result built).imp fun g c ended => ⟨?_, classFor_pairs ended⟩
    obtain ⟨_, name, -⟩ := classFor_result ended
    exact name

/-- A document with an operation that lists a tag twice, and one that has no tags and answers with
values of a schema. -/
def taggedDocument (schema : Value) : Entries :=
  [(.str "openapi", .str "3.1.0"),
    (.str "info", .map [(.str "title", .str "Pets"), (.str "version", .str "1")]),
    (.str "paths", .map [(.str "/pets", .map [
      (.str "post", .map [(.str "tags", .list [.str "store", .str "pets", .str "store"])]),
      (.str "get", .map [(.str "responses", .map [(.str "200", .map [
        (.str "description", .str "ok"),
        (.str "content", .map [(.str "application/json",
          .map [(.str "schema", schema)])])])])])])])]

theorem apiClasses_by_tag_of_tagged :
    ∃ d classes, (Document.ofEntries (taggedDocument (.bool true))).result = .ok d ∧
      (operationsByTag (d.unrolled 64)).map (fun g => (g.1, g.2.map (·.method))) =
        [("default", ["GET"]), ("pets", ["POST"]), ("store", ["POST"])] ∧
      (apiClasses (d.unrolled 64) ⟨[], 64⟩ 80 []).result = .ok classes ∧
      List.Forall₂ (fun (g : String × List Operation) c => c.name = className g.1 ∧
        HasPairs (FromPlan fun o p => ∃ name, Plans ⟨[], 64⟩ 80 name o p) g.2 c)
        (operationsByTag (d.unrolled 64)) classes := by
  have read : (Document.ofEntries (taggedDocument (.bool true))).result.map (fun d =>
      let groups := ["default", "pets", "store"].map fun tag =>
        (tag, tagged (d.unrolled 64).operations tag)
      ((d.unrolled 64).operations.flatMap tagsOf, groups.map (fun g => (g.1, g.2.map (·.method))),
        (classesFor ⟨[], 64⟩ 80 d.security [] groups).result.isOk)) =
      .ok (["store", "pets", "store", "default"],
        [("default", ["GET"]), ("pets", ["POST"]), ("store", ["POST"])], true) := by
    decide +kernel
  obtain ⟨d, ended, same⟩ := map_eq_ok_iff.1 read
  obtain ⟨tags, same⟩ := Prod.mk.inj same
  obtain ⟨methods, succeeds⟩ := Prod.mk.inj same
  have sorted : sortedNames ["store", "pets", "store", "default"] = ["default", "pets", "store"] :=
    sortedNames_eq (by decide +kernel) (by simp; tauto)
  have groups : operationsByTag (d.unrolled 64) = ["default", "pets", "store"].map fun tag =>
      (tag, tagged (d.unrolled 64).operations tag) := by
    rw [operationsByTag, tags, sorted]
    rfl
  rw [← groups] at methods succeeds
  have security : (d.unrolled 64).security = d.security := by
    unfold Document.unrolled
    split <;> rfl
  rw [← security] at succeeds
  obtain ⟨classes, built⟩ := exists_eq_ok succeeds
  obtain ⟨-, -, -, each⟩ := apiClasses_by_tag ended 64
  exact ⟨d, classes, ended, methods, built, (each ⟨[], 64⟩ 80 []).2 classes built⟩

/-- An object schema that says of the object, and not of its members, that it is required. -/
def requiredObject : Value :=
  .map [(.str "type", .str "object"),
    (.str "properties", .map [(.str "name", .map [(.str "type", .str "string")])]),
    (.str "required", .bool true)]

/-- A document may be read and have no classes. -/
theorem apiClasses_fails_of_requiredObject :
    ∃ d, (Document.ofEntries (taggedDocument requiredObject)).result = .ok d ∧
      d.operations.map tagsOf = [["store", "pets", "store"], ["default"]] ∧
      ∀ width modules classes,
        (apiClasses d ⟨d.schemas, 64⟩ width modules).result ≠ .ok classes := by
  have read : (Document.ofEntries (taggedDocument requiredObject)).result.map (fun d =>
      (d.operations.map tagsOf, d.schemas.isEmpty,
        (d.operations.getLast?.map fun o => (responseOf ⟨[], 64⟩ o).result.isOk))) =
      .ok ([["store", "pets", "store"], ["default"]], true, some false) := by
    decide +kernel
  obtain ⟨d, ended, same⟩ := map_eq_ok_iff.1 read
  obtain ⟨tags, same⟩ := Prod.mk.inj same
  obtain ⟨none, fails⟩ := Prod.mk.inj same
  refine ⟨d, ended, tags, fun width modules classes built => ?_⟩
  obtain ⟨o, last, fails⟩ := Option.map_eq_some_iff.1 fails
  have buildable := (returns_apiClasses_iff d width modules).1 ⟨classes, built⟩ o
    (List.mem_of_getLast? last)
  obtain ⟨r, ended⟩ := returns_responseOf_iff.2 buildable.response
  rw [List.isEmpty_iff.1 none] at ended
  rw [ended] at fails
  cases fails

end ClientGen.Client
