import ClientGen.Proofs.Document.Prepared
import ClientGen.Proofs.Lists.Lookup

/-!
# Documents whose components stand in another order

Preparing a document does not depend on the order of its components, as long as no two of them get
the same type name: then new names are type names without numbers (`renames_eq_map`), which are
looked up alike in any order, and the places of schemas are counted alike. So the document comes out
the same but for the order of its components (`prepare_withComponents`).
-/

namespace ClientGen.Document

open Name (typeName)
open Report (bind_result_eq_ok_iff)

/-- A document with other components. -/
def withComponents (d : Document) (components : List (String × Spot)) : Document :=
  { d with components }

/-! ### Names -/

/-- Distinct type names are not numbered. -/
theorem renamesAfter_of_nodup {taken names : List String} (distinct : (names.map typeName).Nodup)
    (free : ∀ name ∈ names, typeName name ∉ taken) :
    renamesAfter taken names = names.map fun name => (name, typeName name) := by
  induction names generalizing taken with
  | nil => rfl
  | cons name rest ih =>
    obtain ⟨new, distinct⟩ := List.nodup_cons.1 distinct
    obtain ⟨here, free⟩ := List.forall_mem_cons.1 free
    have kept : Name.distinctFrom taken (typeName name) = typeName name := by
      rw [Name.distinctFrom, if_neg (by simpa using here)]
    rw [renamesAfter, kept, List.map_cons, ih distinct fun other mem used => ?_]
    rcases List.mem_cons.1 used with same | used
    · exact new (same ▸ List.mem_map_of_mem mem)
    · exact free other mem used

section Distinct

variable {d : Document} (distinct : (d.schemas.map fun c => typeName c.1).Nodup)

include distinct

theorem nodup_map_typeName : ((d.schemas.map (·.1)).map typeName).Nodup := by
  rw [List.map_map, Function.comp_def]
  exact distinct

theorem renames_eq_map : d.renames = d.schemas.map fun c => (c.1, typeName c.1) := by
  rw [renames, renamesAfter_of_nodup (nodup_map_typeName distinct) fun _ _ => List.not_mem_nil,
    List.map_map, Function.comp_def]

theorem nodup_names : (d.schemas.map (·.1)).Nodup :=
  List.Nodup.of_map typeName (nodup_map_typeName distinct)

/-- The names of components after the pass. -/
theorem map_fst_of_normalizeNames {named : Document} (ok : (normalizeNames d).result = .ok named) :
    named.schemas.map (·.1) = d.schemas.map fun c => typeName c.1 := by
  have renamed := (isRenamed_of_ok ok).schemas
  have new : ∀ c ∈ d.schemas, d.newName c.1 = typeName c.1 := by
    intro c mem
    have found := mem_of_lookup (lookup_renames d (List.mem_map_of_mem mem))
    rw [renames_eq_map distinct] at found
    obtain ⟨c', -, same⟩ := List.mem_map.1 found
    obtain ⟨name, type⟩ := Prod.mk.inj same
    rw [← type, name]
  rw [renamed, List.map_map]
  exact List.map_congr_left new

end Distinct

/-! ### Renaming -/

section Lookups

variable {names names' : List (String × String)}

theorem renameRef_congr (same : ∀ name, names.lookup name = names'.lookup name) (ref : String) :
    renameRef names ref = renameRef names' ref := by
  rw [renameRef, renameRef]
  cases Schema.componentOf? ref with
  | none => rfl
  | some name => rw [Option.bind_some, Option.bind_some, same]

theorem renameAt_congr (same : ∀ name, names.lookup name = names'.lookup name) (k : Key)
    (v : Value) : renameAt names k v = renameAt names' k v := by
  unfold renameAt
  split
  · rw [renameRef_congr same]
  · rfl

mutual

/-- What a value becomes depends on what stands under names alone. -/
theorem rename_congr (same : ∀ name, names.lookup name = names'.lookup name) :
    ∀ v : Value, rename names v = rename names' v
  | .map es => by rw [rename, rename, renameMembers_congr same es]
  | .list items => by rw [rename, rename, renameItems_congr same items]
  | .null => rfl
  | .bool _ => rfl
  | .int _ => rfl
  | .float _ => rfl
  | .str _ => rfl
  | .other _ => rfl
  | .pair _ _ => rfl
  | .set _ => rfl
  | .loop _ => rfl

theorem renameItems_congr (same : ∀ name, names.lookup name = names'.lookup name) :
    ∀ items : List Value, renameItems names items = renameItems names' items
  | [] => rfl
  | v :: rest => by
    rw [renameItems, renameItems, rename_congr same v, renameItems_congr same rest]

theorem renameMembers_congr (same : ∀ name, names.lookup name = names'.lookup name) :
    ∀ es : Entries, renameMembers names es = renameMembers names' es
  | [] => rfl
  | (k, v) :: rest => by
    rw [renameMembers, renameMembers, rename_congr same v, renameAt_congr same,
      renameMembers_congr same rest]

end

end Lookups

/-! ### Another order -/

section Reordered

variable {d : Document} {components : List (String × Spot)}
  (reordered : components.Perm d.components)

include reordered

theorem schemas_withComponents_perm : (d.withComponents components).schemas.Perm d.schemas :=
  reordered.map _

theorem rootSpots_withComponents_perm :
    (d.withComponents components).rootSpots.Perm d.rootSpots :=
  (reordered.map _).append_right _

theorem isValid_withComponents : (d.withComponents components).IsValid ↔ d.IsValid := by
  have schemas := schemas_withComponents_perm reordered
  exact ⟨fun h => ⟨h.titled, h.versioned, fun c mem => h.mappings c (schemas.mem_iff.2 mem)⟩,
    fun h => ⟨h.titled, h.versioned, fun c mem => h.mappings c (schemas.mem_iff.1 mem)⟩⟩

theorem schemaRoots_withComponents_perm :
    (d.withComponents components).schemaRoots.Perm d.schemaRoots :=
  (rootSpots_withComponents_perm reordered).map _

theorem isFinite_withComponents : (d.withComponents components).IsFinite ↔ d.IsFinite := by
  rw [IsFinite, IsFinite, (schemaRoots_withComponents_perm reordered).any_eq]

theorem timesAt_withComponents : (d.withComponents components).timesAt = d.timesAt := by
  funext place
  have roots := rootSpots_withComponents_perm reordered
  rw [timesAt, timesAt]
  exact roots.foldl_eq' (fun x _ y _ n => by omega) 0

/-- Normalising leaves the order as it is. -/
theorem normalizedSchemas_withComponents :
    ∃ others, others.Perm d.normalizedSchemas.components ∧
      (d.withComponents components).normalizedSchemas =
        d.normalizedSchemas.withComponents others := by
  refine ⟨_, reordered.map fun c => (c.1, c.2.map fun x => normalize d.timesAt x.value x.place), ?_⟩
  rw [normalizedSchemas, timesAt_withComponents reordered]
  rfl

variable (distinct : (d.schemas.map fun c => typeName c.1).Nodup)

include distinct

/-- The new names are those of the other order, in this order. -/
theorem renames_withComponents_perm : (d.withComponents components).renames.Perm d.renames := by
  have schemas := schemas_withComponents_perm reordered
  rw [renames_eq_map distinct, renames_eq_map ((schemas.map _).nodup_iff.2 distinct)]
  exact schemas.map _

theorem lookup_renames_withComponents (name : String) :
    (d.withComponents components).renames.lookup name = d.renames.lookup name := by
  refine lookup_eq_of_perm (renames_withComponents_perm reordered distinct) ?_ name
  rw [renames, map_fst_renamesAfter]
  exact nodup_names distinct

/-- Renaming leaves the order as it is. -/
theorem renamed_withComponents :
    ∃ others, others.Perm d.renamed.components ∧
      (d.withComponents components).renamed = d.renamed.withComponents others := by
  have same := lookup_renames_withComponents reordered distinct
  have values : (fun x : Spot => rename (d.withComponents components).renames x.value) =
      fun x => rename d.renames x.value := funext fun x => rename_congr same x.value
  have names : (fun c : String × Spot =>
        (((d.withComponents components).renames.lookup c.1).getD c.1, c.2)) =
      fun c => ((d.renames.lookup c.1).getD c.1, c.2) := funext fun c => by rw [same]
  refine ⟨_, (reordered.map fun c => (c.1, c.2.map fun x => rename d.renames x.value)).map
    fun c => ((d.renames.lookup c.1).getD c.1, c.2), ?_⟩
  rw [renamed, values, names]
  rfl

theorem normalizeNames_withComponents {named : Document}
    (ok : (normalizeNames d).result = .ok named) :
    ∃ others, others.Perm named.components ∧
      (normalizeNames (d.withComponents components)).result = .ok (named.withComponents others) := by
  have all := (renames_withComponents_perm reordered distinct).all_eq (f := fun n => n.1 == n.2)
  rw [normalizeNames_result] at ok ⊢
  rw [all, (schemaRoots_withComponents_perm reordered).any_eq]
  split at ok
  · next kept =>
    obtain rfl := Except.ok.inj ok
    exact ⟨components, reordered, if_pos kept⟩
  · next moved =>
    split at ok
    · cases ok
    · next finite =>
      obtain rfl := Except.ok.inj ok
      obtain ⟨others, perm, same⟩ := renamed_withComponents reordered distinct
      exact ⟨others, perm, by rw [if_neg moved, if_neg finite, same]⟩

/-- **Preparing a document leaves the order of its components as it is**, and what it makes of them
does not depend on the order. -/
theorem prepare_withComponents {d' : Document} (prepared : d.prepare.result = .ok d') :
    ∃ others, others.Perm d'.components ∧
      (d.withComponents components).prepare.result = .ok (d'.withComponents others) := by
  obtain ⟨valid, finite, named, renamed, finite', rfl⟩ := prepare_result_eq_ok_iff.1 prepared
  obtain ⟨between, perm, renamed'⟩ := normalizeNames_withComponents reordered distinct renamed
  obtain ⟨others, perm', normalized⟩ := normalizedSchemas_withComponents perm
  refine ⟨others, perm', prepare_result_eq_ok_iff.2 ⟨?_, ?_, _, renamed', ?_, normalized.symm⟩⟩
  · exact (isValid_withComponents reordered).2 valid
  · exact (isFinite_withComponents reordered).2 finite
  · exact (isFinite_withComponents perm).2 finite'

end Reordered

/-- The components of a prepared document have the distinct type names that they were to get. -/
theorem nodup_names_of_prepare {d d' : Document} (prepared : d.prepare.result = .ok d')
    (distinct : (d.schemas.map fun c => typeName c.1).Nodup) : (d'.schemas.map (·.1)).Nodup := by
  obtain ⟨-, -, named, renamed, -, rfl⟩ := prepare_result_eq_ok_iff.1 prepared
  have names := map_fst_of_normalizeNames distinct renamed
  rw [schemas_normalizedSchemas, List.map_map]
  rw [Document.schemas, List.map_map] at names
  exact (names ▸ distinct : _)

end ClientGen.Document
