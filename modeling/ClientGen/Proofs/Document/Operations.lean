import ClientGen.Document.Read
import ClientGen.Proofs.Lists.Lookup
import ClientGen.Proofs.Lists.Pointwise
import ClientGen.Proofs.Report.Matching
import ClientGen.Proofs.Text.Capital

/-!
# Operations of a document

An operation that was read is that of its path and its verb (`readOperation_yields`). Paths stand
under their own texts, each text once, and the operations of a path under their verbs, each verb once
(`AreOfPath`). So no two operations of a document have the same path and verb (`operations_differ`):
small and capital letters make no difference to a verb.
-/

namespace ClientGen

namespace Document

open Report (Yields)

theorem nodup_keys_byText {α : Type} (pairs : List (String × α)) :
    ((byText pairs).map (·.1)).Nodup := by
  have each (known : List (String × α)) (distinct : (known.map (·.1)).Nodup) :
      ((pairs.foldl (fun known p => Schema.setPair p.1 p.2 known) known).map (·.1)).Nodup := by
    induction pairs generalizing known with
    | nil => exact distinct
    | cons p rest ih => exact ih _ (nodup_keys_setPair p.1 p.2 distinct)
  exact each [] List.nodup_nil

theorem mem_of_mem_byText {α : Type} {pairs : List (String × α)} {pair : String × α}
    (mem : pair ∈ byText pairs) : pair ∈ pairs := by
  have each (ps known : List (String × α))
      (mem : pair ∈ ps.foldl (fun known p => Schema.setPair p.1 p.2 known) known) :
      pair ∈ ps ∨ pair ∈ known := by
    induction ps generalizing known with
    | nil => exact .inr mem
    | cons p rest ih =>
      rcases ih _ mem with later | found
      · exact .inl (List.mem_cons_of_mem _ later)
      · rcases mem_setPair found with rfl | old
        · exact .inl List.mem_cons_self
        · exact .inr old
  exact (each pairs [] mem).resolve_right List.not_mem_nil

theorem yields_readEach {α β : Type} {P : β → Prop} {f : α → Reading β} (h : ∀ a, Yields P (f a))
    (as : List α) : Yields (fun bs => ∀ b ∈ bs, P b) (readEach f as) := by
  induction as with
  | nil => exact .pure (List.forall_mem_nil P)
  | cons a rest ih =>
    exact (h a).bind fun b first => ih.bind fun bs others =>
      .pure (List.forall_mem_cons.2 ⟨first, others⟩)

theorem yields_fail_bind {α β : Type} {P : β → Prop} (e : Failure) (f : α → Reading β) :
    Yields P (Report.fail e >>= f) := nofun

variable (source : Shared)

/-- What is read of an operation after its parameters. -/
def readAfterParameters (path method : String) (x : Spot) (parameters : List (Option Parameter)) :
    Reading Operation := do
  let request := source.get x "requestBody"
  let body ← if request.value.truthy then some <$> readBody source request else pure none
  let answers ← mappingOrNone (source.get x "responses")
  let responses ← readEach (fun (key, y) => do
    let status ← shownKey key
    return (status, ← readResponse source status y)) (source.entries answers)
  let listedTags ← listedOrNone source (source.get x "tags")
  let tags ← readEach (fun y => shown (source.whole y)) listedTags
  let security ← match source.get x "security" with
    | ⟨.null, _⟩ => pure none
    | y => some <$> listed source y
  return {
    method
    path
    operationId := source.valueOf x "operationId"
    tags
    summary := source.valueOf x "summary"
    description := source.valueOf x "description"
    parameters := mergeParameters (parameters.filterMap id)
    body
    responses := byText responses
    isDeprecated := (source.get x "deprecated").value.truthy
    security := security.map fun ys => ys.map source.whole }

/-- The parameters of an operation are read first. -/
theorem readOperation_eq (path method : String) (shared x : Spot) :
    readOperation source path method shared x = (do
      let sharedItems ← listedOrNone source shared
      let ownItems ← listedOrNone source (source.get x "parameters")
      let parameters ← readEach (readParameter source) (sharedItems ++ ownItems)
      readAfterParameters source path method x parameters) := rfl

/-- An operation is that of its path and its verb, and has the parameters that were read. -/
theorem readAfterParameters_yields (path method : String) (x : Spot)
    (parameters : List (Option Parameter)) :
    Yields (fun o => (o.path = path ∧ o.method = method) ∧
      o.parameters = mergeParameters (parameters.filterMap id))
      (readAfterParameters source path method x parameters) := by
  unfold readAfterParameters
  dsimp only
  split <;>
  · iterate 5 refine Report.yields_bind fun _ => ?_
    split <;> exact Report.yields_bind fun _ => .pure ⟨⟨rfl, rfl⟩, rfl⟩

theorem readOperation_yields (path method : String) (shared x : Spot) :
    Yields (fun o => o.path = path ∧ o.method = method)
      (readOperation source path method shared x) := by
  rw [readOperation_eq]
  iterate 3 refine Report.yields_bind fun _ => ?_
  exact fun o ended => (readAfterParameters_yields source path method x _ o ended).1

/-- Whether operations of a path stand under their verbs, each verb once. -/
structure AreOfPath (path : String) (operations : List (String × Operation)) : Prop where
  distinct : (operations.map (·.1)).Nodup
  verb : ∀ o ∈ operations, o.1 ∈ verbs ∧ o.2.method = Text.upper o.1
  path : ∀ o ∈ operations, o.2.path = path

theorem isPlainSmall_of_mem_verbs {verb : String} (mem : verb ∈ verbs) :
    ∀ c ∈ verb.toList, Text.isPlainSmall c = true := by
  have all : ∀ verb ∈ verbs, verb.toList.all Text.isPlainSmall = true := by decide
  exact List.all_eq_true.1 (all verb mem)

theorem readOperations_yields (path : String) (item : Spot) :
    Yields (AreOfPath path) (readOperations source path item) := by
  refine Yields.bind (P := fun found => ∀ o ∈ found, ∀ p ∈ o, (p.1 ∈ verbs ∧
    p.2.method = Text.upper p.1) ∧ p.2.path = path) ?each fun found all => .pure ?merged
  case each =>
    refine yields_readEach (fun (key, y) => Report.yields_bind fun word => ?_) _
    dsimp only
    split
    · next here =>
      rw [Bool.and_eq_true, List.contains_iff_mem] at here
      refine (readOperation_yields source path _ _ y).bind fun o kept => .pure ?_
      rintro _ ⟨⟩
      refine ⟨⟨here.1, ?_⟩, kept.1⟩
      rw [kept.2, Text.upper_lower (isPlainSmall_of_mem_verbs here.1)]
    · exact .pure nofun
  case merged =>
    have listed : ∀ o ∈ byText (found.filterMap id), (o.1 ∈ verbs ∧
        o.2.method = Text.upper o.1) ∧ o.2.path = path := by
      intro o mem
      obtain ⟨entry, present, rfl⟩ := List.mem_filterMap.1 (mem_of_mem_byText mem)
      exact all _ present o rfl
    exact ⟨nodup_keys_byText _, fun o mem => (listed o mem).1, fun o mem => (listed o mem).2⟩

theorem readPath_yields (key : Key) (x : Spot) :
    Yields (fun item => AreOfPath item.path item.operations) (readPath source key x) := by
  unfold readPath
  split
  · refine Report.yields_bind fun item => Report.yields_bind fun path => ?_
    exact (readOperations_yields source path item).bind fun operations kept => .pure kept
  · exact Report.yields_bind fun _ => nofun

theorem readPaths_yields : Yields (fun paths => (paths.map (·.1)).Nodup ∧
    ∀ p ∈ paths, AreOfPath p.1 p.2.operations) (readPaths source) := by
  refine Report.yields_bind fun x => Yields.bind (P := fun items => ∀ p ∈ items,
    AreOfPath p.1 p.2.operations) ?_ fun items all => .pure ⟨nodup_keys_byText _, ?_⟩
  · refine yields_readEach (fun (key, y) => ?_) _
    exact (readPath_yields source key y).bind fun item kept => .pure kept
  · exact fun p mem => all p (mem_of_mem_byText mem)

theorem ofShared_yields : Yields (fun d => (d.paths.map (·.1)).Nodup ∧
    ∀ p ∈ d.paths, AreOfPath p.1 p.2.operations) (ofShared source) := by
  unfold ofShared
  dsimp only
  split
  · exact yields_fail_bind _ _
  · refine Report.yields_bind fun openapi => ?_
    split
    · exact yields_fail_bind _ _
    · iterate 5 refine Report.yields_bind fun _ => ?_
      refine (readPaths_yields source).bind fun paths kept => ?_
      iterate 5 refine Report.yields_bind fun _ => ?_
      exact .pure kept

/-! ### Operations of a document -/

theorem upper_injOn_verbs : ∀ v ∈ verbs, ∀ w ∈ verbs, Text.upper v = Text.upper w → v = w := by
  decide +kernel

/-- The operations of a path differ in their methods. -/
theorem AreOfPath.nodup_methods {path : String} {operations : List (String × Operation)}
    (h : AreOfPath path operations) : (operations.map (·.2.method)).Nodup := by
  refine (nodup_map_congr fun o mem o' mem' => ?_).2 h.distinct
  obtain ⟨listed, method⟩ := h.verb o mem
  obtain ⟨listed', method'⟩ := h.verb o' mem'
  rw [method, method']
  exact ⟨upper_injOn_verbs _ listed _ listed', congrArg Text.upper⟩

/-- **No two operations of a document that was read have the same path and verb**, and each of them
has one of the verbs. -/
theorem operations_differ {d : Document} (ended : (ofShared source).result = .ok d) :
    (d.operations.map fun o => (o.path, o.method)).Nodup ∧
      ∀ o ∈ d.operations, o.method ∈ verbs.map Text.upper := by
  obtain ⟨distinct, each⟩ := ofShared_yields source d ended
  constructor
  · rw [operations, List.map_flatMap, List.nodup_flatMap]
    refine ⟨fun p mem => ?_, ?_⟩
    · have h := each p mem
      refine List.Nodup.of_map (·.2) ?_
      simpa [Function.comp_def] using h.nodup_methods
    · refine (List.pairwise_map.1 distinct).imp_of_mem fun {p p'} mem mem' other => ?_
      refine List.disjoint_left.2 fun key here there => ?_
      obtain ⟨_, listed, rfl⟩ := List.mem_map.1 here
      obtain ⟨o, inside, rfl⟩ := List.mem_map.1 listed
      obtain ⟨_, listed', same⟩ := List.mem_map.1 there
      obtain ⟨o', inside', rfl⟩ := List.mem_map.1 listed'
      have path := (each p mem).path o inside
      have path' := (each p' mem').path o' inside'
      exact other (path.symm.trans ((Prod.mk.inj same).1.symm.trans path'))
  · intro o mem
    obtain ⟨p, listed, inside⟩ := List.mem_flatMap.1 mem
    obtain ⟨entry, here, rfl⟩ := List.mem_map.1 inside
    obtain ⟨verb, method⟩ := (each p listed).verb entry here
    exact List.mem_map.2 ⟨entry.1, verb, method.symm⟩

/-- Changing schemas changes the operations one by one. -/
theorem operations_mapRoots (f : Spot → Value) (d : Document) :
    (d.mapRoots f).operations = d.operations.map (mapOperation f) := by
  rw [mapRoots, operations, operations, List.flatMap_map, List.map_flatMap]
  refine List.flatMap_congr fun p _ => ?_
  rw [List.map_map, List.map_map]
  rfl

end Document

end ClientGen
