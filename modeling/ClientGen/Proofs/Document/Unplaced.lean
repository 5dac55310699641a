import ClientGen.Document.Read
import ClientGen.Proofs.Schema.Parts
import Mathlib.Data.List.Forall2

/-!
# Documents apart from places

A document says where its schemas stand, so that what stands in several places can be told from what
is written several times. `Document.unplaced` leaves that out, and what is collected from the parts
of a document keeps no more of their places than the parts do (`byText_map`, `mergeParameters_map`).

Where nothing stands inside itself, looking into a document is looking into its tree
(`find?_eq_treeOf` and, for each part that is read, `readContent_eq_treeOf` to
`readSecuritySchemes_eq_treeOf`), so that a document is read like its tree (`ofShared_eq_treeOf`).
What is found in a tree are the values there (`find?_treeOf`, `get_treeOf`, `entries_related`,
`listed?_related`).
-/

namespace ClientGen

/-! ### Leaving out places -/

/-- A spot without its place. -/
def Spot.unplaced (x : Spot) : Spot := ⟨x.value, []⟩

/-- The content of a body without the places of its schemas. -/
def Content.unplaced (c : Content) : Content := c.map fun m => (m.1, m.2.unplaced)

/-- A parameter without the place of its schema. -/
def Parameter.unplaced (p : Parameter) : Parameter := { p with spot := p.spot.unplaced }

/-- The body of a request without the places of its schemas. -/
def RequestBody.unplaced (b : RequestBody) : RequestBody :=
  { b with content := b.content.unplaced }

/-- A response without the places of its schemas. -/
def Response.unplaced (r : Response) : Response := { r with content := r.content.unplaced }

/-- An operation without the places of its schemas. -/
def Operation.unplaced (o : Operation) : Operation :=
  { o with
    parameters := o.parameters.map Parameter.unplaced
    body := o.body.map RequestBody.unplaced
    responses := o.responses.map fun r => (r.1, r.2.unplaced) }

/-- A path without the places of its schemas. -/
def PathItem.unplaced (p : PathItem) : PathItem :=
  { p with operations := p.operations.map fun o => (o.1, o.2.unplaced) }

/-- A document without the places of its schemas. -/
def Document.unplaced (d : Document) : Document :=
  { d with
    paths := d.paths.map fun p => (p.1, p.2.unplaced)
    components := d.components.map fun c => (c.1, c.2.unplaced)
    links := [] }

namespace Document

open Report (Matches)

section Collected

variable {α β : Type}

theorem setPair_map (f : α → β) (name : String) (a : α) (pairs : List (String × α)) :
    (Schema.setPair name a pairs).map (fun p => (p.1, f p.2)) =
      Schema.setPair name (f a) (pairs.map fun p => (p.1, f p.2)) := by
  induction pairs with
  | nil => rfl
  | cons p rest ih =>
    rw [Schema.setPair, List.map_cons, Schema.setPair]
    split
    · rfl
    · rw [List.map_cons, ih]

theorem foldl_setPair_map (f : α → β) (known pairs : List (String × α)) :
    (pairs.foldl (fun known p => Schema.setPair p.1 p.2 known) known).map
        (fun p => (p.1, f p.2)) =
      (pairs.map fun p => (p.1, f p.2)).foldl (fun known p => Schema.setPair p.1 p.2 known)
        (known.map fun p => (p.1, f p.2)) := by
  induction pairs generalizing known with
  | nil => rfl
  | cons p rest ih => rw [List.foldl_cons, ih, setPair_map, List.map_cons, List.foldl_cons]

theorem byText_map (f : α → β) (pairs : List (String × α)) :
    (byText pairs).map (fun p => (p.1, f p.2)) = byText (pairs.map fun p => (p.1, f p.2)) :=
  foldl_setPair_map f [] pairs

theorem map_filterMap_id (f : α → β) (os : List (Option α)) :
    (os.filterMap id).map f = (os.map (Option.map f)).filterMap id := by
  rw [List.filterMap_map, List.map_filterMap]
  rfl

theorem setParameter_map (p : Parameter) (ps : List Parameter) :
    (setParameter p ps).map Parameter.unplaced =
      setParameter p.unplaced (ps.map Parameter.unplaced) := by
  induction ps with
  | nil => rfl
  | cons q rest ih =>
    rw [setParameter, List.map_cons, setParameter]
    change _ = if sameParameter q p then _ else _
    split
    · rfl
    · rw [List.map_cons, ih]

theorem foldl_setParameter_map (merged ps : List Parameter) :
    (ps.foldl (fun merged p => setParameter p merged) merged).map Parameter.unplaced =
      (ps.map Parameter.unplaced).foldl (fun merged p => setParameter p merged)
        (merged.map Parameter.unplaced) := by
  induction ps generalizing merged with
  | nil => rfl
  | cons p rest ih => rw [List.foldl_cons, ih, setParameter_map, List.map_cons, List.foldl_cons]

theorem mergeParameters_map (ps : List Parameter) :
    (mergeParameters ps).map Parameter.unplaced = mergeParameters (ps.map Parameter.unplaced) :=
  foldl_setParameter_map [] ps

theorem map_eq_of_forall₂ {f : α → β} {as bs : List α}
    (h : List.Forall₂ (fun a b => f a = f b) as bs) : as.map f = bs.map f := by
  induction h with
  | nil => rfl
  | cons first _ ih => rw [List.map_cons, List.map_cons, first, ih]

theorem readEach_matches {γ δ : Type} {f : α → Reading γ} {g : β → Reading δ} {r : γ → δ → Prop}
    {as : List α} {bs : List β} (h : List.Forall₂ (fun a b => Matches r (f a) (g b)) as bs) :
    Matches (List.Forall₂ r) (readEach f as) (readEach g bs) := by
  induction h with
  | nil => exact .pure .nil
  | cons first _ ih =>
    exact first.bind fun c d hcd => ih.bind fun cs ds hs => .pure (.cons hcd hs)

end Collected

/-! ### Looking into a tree -/

/-- A value in which nothing stands in several places. -/
def treeOf (root : Value) : Shared := { root }

section Tree

variable {root root' : Value} {x y : Spot} {es es' : Entries}

theorem find?_treeOf (root : Value) (x : Spot) (name : String) :
    ((treeOf root).find? x name).map (·.value) = x.value.map?.bind (Entries.find? name) := by
  rw [Shared.find?]
  cases x.value with
  | map es =>
    change ((Entries.find? name es).map _).map _ = Entries.find? name es
    rw [Option.map_map]
    exact Option.map_id'
  | _ => rfl

theorem get_treeOf (root : Value) (x : Spot) (name : String) :
    ((treeOf root).get x name).value = x.value.field name := by
  have found := find?_treeOf root x name
  rw [Shared.get]
  cases value : x.value with
  | map es =>
    rw [value] at found
    change _ = (Entries.find? name es).getD .null
    rw [← show _ = Entries.find? name es from found]
    cases (treeOf root).find? x name <;> rfl
  | _ =>
    rw [value] at found
    rw [Option.map_eq_none_iff.1 found]
    rfl

/-- The entries of two mappings are related if the values in them are. -/
theorem entries_related {R : Key → Value → Value → Prop} (left : x.value = .map es)
    (right : y.value = .map es') (h : Schema.Entrywise R es es') :
    List.Forall₂ (fun a b => a.1 = b.1 ∧ R a.1 a.2.value b.2.value) ((treeOf root).entries x)
      ((treeOf root').entries y) := by
  rw [Shared.entries, Shared.entries, left, right]
  change List.Forall₂ _ ((treeOf root).entrySpots x.place es)
    ((treeOf root').entrySpots y.place es')
  clear left right
  induction h with
  | nil => exact .nil
  | cons first _ ih => exact .cons ⟨rfl, first⟩ ih

theorem map_value_itemSpots (root : Value) (place : Value.Place) (items : List Value) :
    ((treeOf root).itemSpots place items).map (·.value) = items := by
  refine List.ext_getElem (by simp [Shared.itemSpots]) fun n _ _ => ?_
  simp only [Shared.itemSpots, List.getElem_map, List.getElem_mapIdx]
  rfl

theorem map_value_listed? (root : Value) (x : Spot) :
    ((treeOf root).listed? x).map (List.map (·.value)) = x.value.listed? := by
  have scalars (vs : Option (List Value)) :
      (vs.map fun vs => vs.map fun w => (⟨w, []⟩ : Spot)).map (List.map (·.value)) = vs := by
    cases vs with
    | none => rfl
    | some vs =>
      rw [Option.map_some, Option.map_some, List.map_map]
      exact congrArg some (List.map_id' vs)
  rw [Shared.listed?]
  split
  · next items eq => rw [eq, Option.map_some, map_value_itemSpots]; rfl
  · next a b eq => rw [eq, Option.map_some, map_value_itemSpots]; rfl
  · exact scalars _

/-- What two values list is related if the values listed are. -/
theorem listed?_related {R : Value → Value → Prop}
    (h : Option.Rel (List.Forall₂ R) x.value.listed? y.value.listed?) :
    Option.Rel (List.Forall₂ fun a b => R a.value b.value) ((treeOf root).listed? x)
      ((treeOf root').listed? y) := by
  rw [← map_value_listed? root, ← map_value_listed? root'] at h
  revert h
  generalize (treeOf root).listed? x = as
  generalize (treeOf root').listed? y = bs
  cases as <;> cases bs <;> rintro (h | _)
  · exact .none
  · rw [List.forall₂_map_left_iff, List.forall₂_map_right_iff] at h
    exact .some h

end Tree

/-! ### Reading what does not stand inside itself -/

section Plain

variable {source : Shared} (plain : source.links.hasLoop = false)

include plain

theorem spot_eq_treeOf : source.spot = (treeOf source.root).spot := by
  funext place v
  rw [Shared.spot, plain]
  rfl

theorem whole_eq_treeOf : source.whole = (treeOf source.root).whole := by
  funext x
  rw [Shared.whole, plain]
  rfl

theorem entries_eq_treeOf : source.entries = (treeOf source.root).entries := by
  funext x
  simp only [Shared.entries, Shared.entrySpots, spot_eq_treeOf plain]

theorem find?_eq_treeOf : source.find? = (treeOf source.root).find? := by
  funext x name
  simp only [Shared.find?, spot_eq_treeOf plain]

theorem get_eq_treeOf : source.get = (treeOf source.root).get := by
  funext x name
  rw [Shared.get, Shared.get, find?_eq_treeOf plain]

theorem listed?_eq_treeOf : source.listed? = (treeOf source.root).listed? := by
  funext x
  simp only [Shared.listed?, Shared.itemSpots, spot_eq_treeOf plain]

theorem valueOf_eq_treeOf : source.valueOf = (treeOf source.root).valueOf := by
  funext x name
  rw [Shared.valueOf, Shared.valueOf, whole_eq_treeOf plain, get_eq_treeOf plain]

theorem written_eq_treeOf : source.written = (treeOf source.root).written := by
  funext x
  rw [Shared.written, Shared.written, whole_eq_treeOf plain]

theorem follow_eq_treeOf (names : List String) :
    follow source names = follow (treeOf source.root) names := by
  induction names with
  | nil => rfl
  | cons name rest ih =>
    funext x
    rw [follow, follow, ih, find?_eq_treeOf plain]

theorem listed_eq_treeOf : listed source = listed (treeOf source.root) := by
  funext x
  rw [listed, listed, listed?_eq_treeOf plain]

theorem listedOrNone_eq_treeOf : listedOrNone source = listedOrNone (treeOf source.root) := by
  funext x
  rw [listedOrNone, listedOrNone, listed_eq_treeOf plain]

theorem resolved_eq_treeOf : resolved source = resolved (treeOf source.root) := by
  funext x
  have resolve (ref : Value) : resolve source ref = Document.resolve (treeOf source.root) ref := by
    simp only [Document.resolve, follow_eq_treeOf plain]
    rfl
  simp only [resolved, resolve, find?_eq_treeOf plain]

theorem readContent_eq_treeOf : readContent source = readContent (treeOf source.root) := by
  funext x
  simp only [readContent, entries_eq_treeOf plain, get_eq_treeOf plain, written_eq_treeOf plain]

theorem readParameter_eq_treeOf : readParameter source = readParameter (treeOf source.root) := by
  funext x
  simp only [readParameter, resolved_eq_treeOf plain, find?_eq_treeOf plain, get_eq_treeOf plain,
    valueOf_eq_treeOf plain, whole_eq_treeOf plain, written_eq_treeOf plain]

theorem readBody_eq_treeOf : readBody source = readBody (treeOf source.root) := by
  funext x
  simp only [readBody, resolved_eq_treeOf plain, readContent_eq_treeOf plain, get_eq_treeOf plain,
    valueOf_eq_treeOf plain]

theorem readResponse_eq_treeOf : readResponse source = readResponse (treeOf source.root) := by
  funext status x
  simp only [readResponse, resolved_eq_treeOf plain, readContent_eq_treeOf plain,
    get_eq_treeOf plain, find?_eq_treeOf plain, whole_eq_treeOf plain]

theorem readOperation_eq_treeOf : readOperation source = readOperation (treeOf source.root) := by
  funext path method shared x
  simp only [readOperation, readParameter_eq_treeOf plain, readBody_eq_treeOf plain,
    readResponse_eq_treeOf plain, listedOrNone_eq_treeOf plain, listed_eq_treeOf plain,
    entries_eq_treeOf plain, get_eq_treeOf plain, valueOf_eq_treeOf plain, whole_eq_treeOf plain]

theorem readPaths_eq_treeOf : readPaths source = readPaths (treeOf source.root) := by
  have operations : readOperations source = readOperations (treeOf source.root) := by
    funext path item
    simp only [readOperations, readOperation_eq_treeOf plain, get_eq_treeOf plain,
      entries_eq_treeOf plain]
  have path : readPath source = readPath (treeOf source.root) := by
    funext key x
    simp only [readPath, resolved_eq_treeOf plain, operations]
  simp only [readPaths, path, get_eq_treeOf plain, entries_eq_treeOf plain]
  rfl

theorem readServers_eq_treeOf : readServers source = readServers (treeOf source.root) := by
  funext items
  simp only [readServers, find?_eq_treeOf plain, whole_eq_treeOf plain, valueOf_eq_treeOf plain]

theorem readSecuritySchemes_eq_treeOf :
    readSecuritySchemes source = readSecuritySchemes (treeOf source.root) := by
  funext x
  simp only [readSecuritySchemes, readPair, listed_eq_treeOf plain, entries_eq_treeOf plain,
    whole_eq_treeOf plain]

/-- A document is read like its tree, and keeps where one value stands in several places. -/
theorem ofShared_eq_treeOf : ofShared source =
    (fun d => { d with links := source.links }) <$> ofShared (treeOf source.root) := by
  have spot : source.rootSpot = (treeOf source.root).rootSpot := rfl
  simp only [ofShared, spot, find?_eq_treeOf plain, whole_eq_treeOf plain, get_eq_treeOf plain,
    valueOf_eq_treeOf plain, written_eq_treeOf plain, entries_eq_treeOf plain,
    listedOrNone_eq_treeOf plain, readServers_eq_treeOf plain, readPaths_eq_treeOf plain,
    readSecuritySchemes_eq_treeOf plain]
  split
  · rfl
  rw [map_bind]
  refine bind_congr fun openapi => ?_
  split
  · rfl
  · simp only [map_bind, map_pure]

end Plain

end Document

end ClientGen
