import ClientGen.Document.Passes
import ClientGen.Proofs.Document.Operations
import ClientGen.Proofs.Name.Distinct

/-!
# References to renamed components

Components get the names of types all at once, and so do the references to them.

* `renamesAfter_distinct`, `newName_inj`: new names are distinct.
* `refs_rename`: the references in a renamed value are those of the value, each renamed once.
* `isRenamed_of_ok`: what the pass makes of a document, also where it leaves it as it is.
* **What the pass makes of references** (`normalizeNames_carries`): those to components go on
  resolving to them, and those to nothing go on resolving to nothing, unless a component takes the
  name that they are to (`normalizeNames_captures`).
-/

namespace ClientGen.Document

open Schema (componentOf? refPrefix)

/-! ### References and component names -/

theorem componentOf?_append (name : String) : componentOf? (refPrefix ++ name) = some name := by
  rw [componentOf?, Text.afterPrefix?, String.toList_append, Text.dropPrefix?_append,
    Option.map_some, String.ofList_toList]

theorem eq_append_of_componentOf? {ref name : String} (h : componentOf? ref = some name) :
    ref = refPrefix ++ name := by
  obtain ⟨rest, dropped, rfl⟩ := Option.map_eq_some_iff.1 h
  rw [← String.toList_inj, String.toList_append, String.toList_ofList]
  exact Text.eq_append_of_dropPrefix? dropped

/-! ### New names -/

theorem map_fst_renamesAfter (taken names : List String) :
    (renamesAfter taken names).map (·.1) = names := by
  induction names generalizing taken with
  | nil => rfl
  | cons name rest ih => rw [renamesAfter, List.map_cons, ih]

/-- New names are given one after the other. -/
theorem map_snd_renamesAfter (taken names : List String) :
    (renamesAfter taken names).map (·.2) = Name.distinctNames taken (names.map Name.typeName) := by
  induction names generalizing taken with
  | nil => rfl
  | cons name rest ih => rw [renamesAfter, List.map_cons, ih, List.map_cons, Name.distinctNames]

/-- New names are none of those taken, and distinct. -/
theorem renamesAfter_distinct (taken names : List String) :
    (∀ p ∈ renamesAfter taken names, p.2 ∉ taken) ∧
      ((renamesAfter taken names).map (·.2)).Nodup := by
  obtain ⟨distinct, new⟩ := Name.nodup_distinctNames taken (names.map Name.typeName)
  rw [← map_snd_renamesAfter] at distinct new
  exact ⟨fun p mem => new p.2 (List.mem_map_of_mem mem), distinct⟩

theorem mem_of_lookup {β : Type} {pairs : List (String × β)} {name : String} {b : β}
    (h : pairs.lookup name = some b) : (name, b) ∈ pairs := by
  obtain ⟨before, after, rfl, -⟩ := List.lookup_eq_some_iff.1 h
  exact List.mem_append_right _ List.mem_cons_self

/-- The new name of a component. -/
def newName (d : Document) (name : String) : String := (d.renames.lookup name).getD name

theorem lookup_renames (d : Document) {name : String} (h : name ∈ d.schemas.map (·.1)) :
    d.renames.lookup name = some (d.newName name) := by
  rw [← map_fst_renamesAfter [] (d.schemas.map (·.1)), List.mem_map] at h
  obtain ⟨p, mem, rfl⟩ := h
  have found : (d.renames.lookup p.1).isSome :=
    List.lookup_isSome_iff.2 ⟨p, mem, beq_self_eq_true _⟩
  obtain ⟨new, eq⟩ := Option.isSome_iff_exists.1 found
  rw [newName, eq, Option.getD_some]

/-- Components with different names have different new names. -/
theorem newName_inj (d : Document) {name other : String} (h : name ∈ d.schemas.map (·.1))
    (h' : other ∈ d.schemas.map (·.1)) (eq : d.newName name = d.newName other) : name = other := by
  have distinct := (renamesAfter_distinct [] (d.schemas.map (·.1))).2
  have found := mem_of_lookup (lookup_renames d h)
  have found' := mem_of_lookup (lookup_renames d h')
  exact congrArg Prod.fst (List.inj_on_of_nodup_map distinct found found' eq)

/-! ### Renaming a value -/

section Rename

variable (names : List (String × String))

theorem find?_ref_renameMembers (es : Entries) :
    (Entries.find? "$ref" (renameMembers names es)).bind Value.str? =
      ((es.find? "$ref").bind Value.str?).map (renameRef names) := by
  induction es with
  | nil => rfl
  | cons e rest ih =>
    obtain ⟨k, v⟩ := e
    rw [renameMembers, Entries.find?, Entries.find?]
    split
    · next key =>
      subst key
      cases v <;> rfl
    · exact ih

theorem refs_renameAt (k : Key) (v : Value) : refs (renameAt names k v) = refs v := by
  unfold renameAt
  split
  · rfl
  · rfl

mutual

/-- The references in a renamed value are those of the value, each renamed once. -/
theorem refs_rename : ∀ v : Value, refs (rename names v) = (refs v).map (renameRef names)
  | .map es => by
    rw [rename, refs, refs, find?_ref_renameMembers, refsOfMembers_rename es, List.map_append]
    cases (Entries.find? "$ref" es).bind Value.str? <;> rfl
  | .list items => by rw [rename, refs, refs, refsOfItems_rename items]
  | .null => rfl
  | .bool _ => rfl
  | .int _ => rfl
  | .float _ => rfl
  | .str _ => rfl
  | .other _ => rfl
  | .pair _ _ => rfl
  | .set _ => rfl
  | .loop _ => rfl

theorem refsOfItems_rename : ∀ items : List Value,
    refsOfItems (renameItems names items) = (refsOfItems items).map (renameRef names)
  | [] => rfl
  | v :: rest => by
    rw [renameItems, refsOfItems, refsOfItems, refs_rename v, refsOfItems_rename rest,
      List.map_append]

theorem refsOfMembers_rename : ∀ es : Entries,
    refsOfMembers (renameMembers names es) = (refsOfMembers es).map (renameRef names)
  | [] => rfl
  | (k, v) :: rest => by
    rw [renameMembers, refsOfMembers, refsOfMembers, refs_renameAt, refs_rename v,
      refsOfMembers_rename rest, List.map_append]

end

variable {names}

theorem renameAt_eq_self (same : ∀ ref, renameRef names ref = ref) (k : Key) (v : Value) :
    renameAt names k v = v := by
  unfold renameAt
  split
  · rw [same]
  · rfl

mutual

/-- A value stays as it is where references keep their names. -/
theorem rename_eq_self (same : ∀ ref, renameRef names ref = ref) : ∀ v : Value, rename names v = v
  | .map es => by rw [rename, renameMembers_eq_self same es]
  | .list items => by rw [rename, renameItems_eq_self same items]
  | .null => rfl
  | .bool _ => rfl
  | .int _ => rfl
  | .float _ => rfl
  | .str _ => rfl
  | .other _ => rfl
  | .pair _ _ => rfl
  | .set _ => rfl
  | .loop _ => rfl

theorem renameItems_eq_self (same : ∀ ref, renameRef names ref = ref) : ∀ items : List Value,
    renameItems names items = items
  | [] => rfl
  | v :: rest => by rw [renameItems, rename_eq_self same v, renameItems_eq_self same rest]

theorem renameMembers_eq_self (same : ∀ ref, renameRef names ref = ref) : ∀ es : Entries,
    renameMembers names es = es
  | [] => rfl
  | (k, v) :: rest => by
    rw [renameMembers, rename_eq_self same v, renameAt_eq_self same,
      renameMembers_eq_self same rest]

end

end Rename

/-! ### Renaming a document -/

theorem isSchema_rename (names : List (String × String)) (v : Value) :
    isSchema (rename names v) = isSchema v := by
  cases v <;> rfl

/-- The places of schemas in an operation, whether there are schemas or not. -/
def operationSpots (o : Operation) : List Spot :=
  o.parameters.map (·.spot) ++ (o.body.map fun b => b.content.map (·.2)).getD []
    ++ o.responses.flatMap fun r => r.2.content.map (·.2)

theorem operationRoots_eq (o : Operation) :
    operationRoots o = (operationSpots o).filter fun x => isSchema x.value := rfl

section Map

variable (f : Spot → Value)

theorem map_snd_mapContent (c : Content) :
    (mapContent f c).map (·.2) = (c.map (·.2)).map (Spot.map f) := by
  rw [mapContent, List.map_map, List.map_map]
  rfl

theorem operationSpots_mapOperation (o : Operation) :
    operationSpots (mapOperation f o) = (operationSpots o).map (Spot.map f) := by
  rw [operationSpots, operationSpots, List.map_append, List.map_append]
  congr 2
  · rw [mapOperation, List.map_map, List.map_map]
    rfl
  · rw [mapOperation]
    cases o.body with
    | none => rfl
    | some b => exact map_snd_mapContent f b.content
  · rw [mapOperation, List.flatMap_map, List.map_flatMap]
    exact List.flatMap_congr fun r _ => map_snd_mapContent f r.2.content

variable {f} (kept : ∀ x, isSchema (f x) = isSchema x.value)

include kept

theorem operationRoots_mapOperation (o : Operation) :
    operationRoots (mapOperation f o) = (operationRoots o).map (Spot.map f) := by
  rw [operationRoots_eq, operationRoots_eq, operationSpots_mapOperation, List.filter_map]
  congr 1
  exact List.filter_congr fun x _ => kept x

theorem rootSpots_mapRoots (d : Document) :
    (d.mapRoots f).rootSpots = d.rootSpots.map (Spot.map f) := by
  rw [rootSpots, rootSpots, operations_mapRoots, List.map_append, List.flatMap_map, List.map_flatMap]
  congr 1
  · rw [mapRoots, List.map_map, List.map_map]
    rfl
  · exact List.flatMap_congr fun o _ => operationRoots_mapOperation kept o

end Map

/-- The document with new names. -/
def renamed (d : Document) : Document :=
  let d' := d.mapRoots fun x => rename d.renames x.value
  { d' with components := d'.components.map fun c => ((d.renames.lookup c.1).getD c.1, c.2) }

theorem schemaRoots_renamed (d : Document) :
    d.renamed.schemaRoots = d.schemaRoots.map (rename d.renames) := by
  have roots : d.renamed.rootSpots = (d.mapRoots fun x => rename d.renames x.value).rootSpots := by
    rw [renamed, rootSpots, rootSpots, List.map_map]
    rfl
  rw [schemaRoots, schemaRoots, roots, rootSpots_mapRoots fun x => isSchema_rename _ x.value,
    List.map_map, List.map_map]
  rfl

theorem schemas_renamed (d : Document) :
    d.renamed.schemas = d.schemas.map fun c => (d.newName c.1, rename d.renames c.2) := by
  rw [Document.schemas, Document.schemas, renamed, mapRoots, List.map_map, List.map_map,
    List.map_map]
  rfl

/-- What the pass makes of a document: its schemas with every reference in them renamed, and its
components under their new names. -/
structure IsRenamed (d d' : Document) : Prop where
  roots : d'.schemaRoots = d.schemaRoots.map (rename d.renames)
  schemas : d'.schemas = d.schemas.map fun c => (d.newName c.1, rename d.renames c.2)

section Same

variable {d : Document} (same : d.renames.all (fun n => n.1 == n.2) = true)

include same

theorem eq_of_lookup_renames {name new : String} (h : d.renames.lookup name = some new) :
    new = name :=
  (beq_iff_eq.1 (List.all_eq_true.1 same _ (mem_of_lookup h))).symm

theorem renameRef_eq_self (ref : String) : renameRef d.renames ref = ref := by
  rw [renameRef]
  split
  · next new found =>
    obtain ⟨name, component, new⟩ := Option.bind_eq_some_iff.1 found
    rw [eq_of_lookup_renames same new]
    exact (eq_append_of_componentOf? component).symm
  · rfl

/-- Where every name stays, the document is renamed as it is. -/
theorem isRenamed_self : IsRenamed d d := by
  have stays : ∀ v, rename d.renames v = v := rename_eq_self (renameRef_eq_self same)
  constructor
  · rw [List.map_congr_left fun v _ => stays v, List.map_id']
  · refine ((List.map_congr_left fun c mem => ?_).trans (List.map_id _)).symm
    have name := eq_of_lookup_renames same (lookup_renames d (List.mem_map_of_mem mem))
    rw [name, stays]
    rfl

end Same

theorem normalizeNames_result (d : Document) : (normalizeNames d).result =
    if d.renames.all (fun n => n.1 == n.2) then .ok d
    else if d.schemaRoots.any Value.isEndless then .error .malformed
    else .ok d.renamed := by
  change (if d.renames.all (fun n => n.1 == n.2) then pure d
    else requireFinite d >>= fun _ => pure d.renamed : Reading Document).result = _
  rw [requireFinite]
  split
  · rfl
  · split <;> rfl

theorem isRenamed_of_ok {d d' : Document} (h : (normalizeNames d).result = .ok d') :
    IsRenamed d d' := by
  rw [normalizeNames_result] at h
  split at h
  · next same =>
    cases h
    exact isRenamed_self same
  · split at h
    · cases h
    · cases h
      exact ⟨schemaRoots_renamed d, schemas_renamed d⟩

/-! ### Resolving references -/

/-- The component that a reference resolves to, with its name. -/
def resolve? (d : Document) (ref : String) : Option (String × Value) :=
  (componentOf? ref).bind fun name => (d.schemas.lookup name).map fun schema => (name, schema)

/-- Whether a reference is to the new name of a component. -/
def captures (d : Document) (ref : String) : Bool :=
  d.schemas.any fun c => componentOf? ref == some (d.newName c.1)

/-- What becomes of a reference. One to a component is renamed, once, and resolves to that
component; any other stays, and resolves to nothing unless it is captured. -/
inductive Carried (d d' : Document) (ref ref' : String) : Prop
  | named {name : String} {schema : Value} : d.resolve? ref = some (name, schema) →
      ref' = refPrefix ++ d.newName name →
      d'.resolve? ref' = some (d.newName name, rename d.renames schema) → Carried d d' ref ref'
  | dangling : d.resolve? ref = none → ref' = ref →
      (d'.resolve? ref' = none ↔ d.captures ref = false) → Carried d d' ref ref'

theorem resolve?_eq_some_iff {d : Document} {ref name : String} {schema : Value} :
    d.resolve? ref = some (name, schema) ↔
      componentOf? ref = some name ∧ d.schemas.lookup name = some schema := by
  rw [resolve?, Option.bind_eq_some_iff]
  simp only [Option.map_eq_some_iff, Prod.mk.injEq]
  constructor
  · rintro ⟨n, component, s, found, rfl, rfl⟩
    exact ⟨component, found⟩
  · rintro ⟨component, found⟩
    exact ⟨name, component, schema, found, rfl, rfl⟩

theorem resolve?_eq_none_iff {d : Document} {ref : String} :
    d.resolve? ref = none ↔ ∀ c ∈ d.schemas, componentOf? ref ≠ some c.1 := by
  rw [resolve?]
  cases componentOf? ref with
  | none => simp
  | some name =>
    rw [Option.bind_some, Option.map_eq_none_iff, List.lookup_eq_none_iff]
    simp

/-- Looking up a name that no other pair shares, after the names have been changed. -/
theorem lookup_map_of_inj {β γ : Type} {pairs : List (String × β)} (f : String → String) (g : β → γ)
    {name : String} (inj : ∀ p ∈ pairs, f p.1 = f name → p.1 = name) :
    (pairs.map fun p => (f p.1, g p.2)).lookup (f name) = (pairs.lookup name).map g := by
  induction pairs with
  | nil => rfl
  | cons p rest ih =>
    obtain ⟨here, others⟩ := List.forall_mem_cons.1 inj
    rw [List.map_cons, List.lookup_cons, List.lookup_cons, ih others]
    by_cases eq : p.1 = name
    · rw [eq, beq_self_eq_true, beq_self_eq_true]
      rfl
    · have ne : f name ≠ f p.1 := fun same => eq (here same.symm)
      rw [beq_eq_false_iff_ne.2 ne, beq_eq_false_iff_ne.2 (Ne.symm eq)]

theorem carried_renameRef {d d' : Document} (h : IsRenamed d d') (ref : String) :
    Carried d d' ref (renameRef d.renames ref) := by
  cases resolved : d.resolve? ref with
  | some target =>
    obtain ⟨name, schema⟩ := target
    obtain ⟨component, found⟩ := resolve?_eq_some_iff.1 resolved
    have known : name ∈ d.schemas.map (·.1) := List.mem_map.2 ⟨_, mem_of_lookup found, rfl⟩
    have ref' : renameRef d.renames ref = refPrefix ++ d.newName name := by
      rw [renameRef, component, Option.bind_some, lookup_renames d known]
    refine .named resolved ref' ?_
    rw [ref', resolve?_eq_some_iff, h.schemas]
    refine ⟨componentOf?_append _, ?_⟩
    rw [lookup_map_of_inj d.newName (rename d.renames), found, Option.map_some]
    exact fun c mem eq => newName_inj d (List.mem_map_of_mem mem) known eq
  | none =>
    have missing := resolve?_eq_none_iff.1 resolved
    have ref' : renameRef d.renames ref = ref := by
      rw [renameRef]
      split
      · next new found =>
        obtain ⟨name, component, found⟩ := Option.bind_eq_some_iff.1 found
        have known : name ∈ d.renames.map (·.1) := List.mem_map.2 ⟨_, mem_of_lookup found, rfl⟩
        rw [renames, map_fst_renamesAfter] at known
        obtain ⟨c, mem, rfl⟩ := List.mem_map.1 known
        exact absurd component (missing c mem)
      · rfl
    -- The reference stays, so it is up to the new names alone what it resolves to.
    refine .dangling resolved ref' ?_
    rw [ref', resolve?_eq_none_iff, h.schemas, captures, List.any_eq_false, List.forall_mem_map]
    exact forall₂_congr fun c _ => not_congr beq_iff_eq.symm

/-- **What the pass makes of references.** It ends on every document whose schemas can be walked
through. Then every reference to a component is renamed once and resolves to that component, and
every other stays and resolves to nothing, unless a component has taken the name that it is to. -/
theorem normalizeNames_carries (d : Document) :
    (d.schemaRoots.any Value.isEndless = false → ∃ d', (normalizeNames d).result = .ok d') ∧
    ∀ d', (normalizeNames d).result = .ok d' →
      List.Forall₂ (Carried d d') (d.schemaRoots.flatMap refs) (d'.schemaRoots.flatMap refs) := by
  constructor
  · intro finite
    rw [normalizeNames_result, finite]
    split
    · exact ⟨d, rfl⟩
    · exact ⟨d.renamed, rfl⟩
  · intro d' ok
    have renamed := isRenamed_of_ok ok
    have refs' : d'.schemaRoots.flatMap refs =
        (d.schemaRoots.flatMap refs).map (renameRef d.renames) := by
      rw [renamed.roots, List.flatMap_map, List.map_flatMap]
      exact List.flatMap_congr fun v _ => refs_rename d.renames v
    rw [refs', List.forall₂_map_right_iff]
    exact List.forall₂_same.2 fun ref _ => carried_renameRef renamed ref

/-- A document that holds nothing but component schemas. -/
def ofSchemas (schemas : Schema.Components) : Document where
  openapi := "3.1.0"
  info := ⟨"", "", .null⟩
  servers := []
  paths := []
  components := schemas.map fun c => (c.1, ⟨c.2, []⟩)
  securitySchemes := []
  security := []

theorem normalizeNames_carries_chain :
    let link (name : String) : Value := .map [(.str "$ref", .str (refPrefix ++ name))]
    let d := ofSchemas [("pet", link "Pet"), ("Pet", link "pet")]
    ∃ d', (normalizeNames d).result = .ok d' ∧
      d'.schemaRoots.flatMap refs = [refPrefix ++ "Pet2", refPrefix ++ "Pet"] ∧
      List.Forall₂ (Carried d d') (d.schemaRoots.flatMap refs) (d'.schemaRoots.flatMap refs) := by
  intro link d
  have ok : (normalizeNames d).result = .ok d.renamed := by
    rw [normalizeNames_result, if_neg (by decide +kernel), if_neg (by decide +kernel)]
  exact ⟨d.renamed, ok, by decide +kernel, (normalizeNames_carries d).2 _ ok⟩

/-- A reference to nothing comes to name the component `pet`. -/
theorem normalizeNames_captures :
    let d := ofSchemas [("pet", .map [(.str "type", .str "object")]),
      ("owner", .map [(.str "$ref", .str (refPrefix ++ "Pet"))])]
    d.resolve? (refPrefix ++ "Pet") = none ∧
      ∃ d', (normalizeNames d).result = .ok d' ∧
        d'.schemaRoots.flatMap refs = [refPrefix ++ "Pet"] ∧
        (d'.resolve? (refPrefix ++ "Pet")).isSome := by
  intro d
  have missing : d.resolve? (refPrefix ++ "Pet") = none :=
    Option.isNone_iff_eq_none.1 (by decide +kernel)
  have ok : (normalizeNames d).result = .ok d.renamed := by
    rw [normalizeNames_result, if_neg (by decide +kernel), if_neg (by decide +kernel)]
  exact ⟨missing, d.renamed, ok, by decide +kernel, by decide +kernel⟩

end ClientGen.Document
