import ClientGen.Proofs.Document.Prepared
import ClientGen.Proofs.Document.Settled

/-!
# What passes do to data

Renaming and normalising walk through schemas without asking what a mapping stands for. So a mapping
among the data in a schema is renamed if it looks like a reference, and normalised if it looks like
a schema, and so are the properties of an object, as a mapping (`passes_change_data`).

Renaming keeps a value exactly if it keeps all references in it (`rename_eq_self_iff`). With what is
known of normalising this tells which documents keep all their data (`passes_keepAll_iff`).
-/

namespace ClientGen.Document

open Schema (componentOf?)
open Value (Place Step Links)

/-! ### Renaming -/

section Rename

variable (names : List (String × String))

theorem renameMembers_eq_map (es : Entries) :
    renameMembers names es = es.map fun e => (e.1, renameAt names e.1 (rename names e.2)) := by
  induction es with
  | nil => rfl
  | cons e rest ih => rw [renameMembers, ih, List.map_cons]

theorem renameItems_eq_map (items : List Value) :
    renameItems names items = items.map (rename names) := by
  induction items with
  | nil => rfl
  | cons v rest ih => rw [renameItems, ih, List.map_cons]

/-- Renaming at a key leaves what is no text under `$ref` as it is. -/
theorem renameAt_of_admits {h : Holding} {k : Key} {w : Value}
    (admits : (h.after (.entry k)).Admits w) :
    renameAt names k (rename names w) = rename names w := by
  unfold renameAt
  split
  · next ref same =>
    cases w with
    | str s =>
      -- A text is no schema, and `$ref` is no keyword for data.
      cases h with
      | schema => exact admits.elim
      | properties | definitions => cases admits
      | schemas | datum | data | other => exact admits.elim
    | _ => cases same
  · rfl

theorem staysInPlace_rename : StaysInPlace fun v _ => rename names v := by
  intro h u w step place member admits
  cases step with
  | item n =>
    cases u with
    | list items =>
      have found : items[n]? = some w := member
      show (renameItems names items)[n]? = _
      rw [renameItems_eq_map, List.getElem?_map, found]
      rfl
    | _ => cases member
  | entry k =>
    cases u with
    | map es =>
      have found : es.lookup k = some w := member
      show List.lookup k (renameMembers names es) = _
      rw [renameMembers_eq_map, lookup_map_entries fun k v => renameAt names k (rename names v),
        found, Option.map_some, renameAt_of_admits names admits]
    | _ => cases member

end Rename

/-! ### Data that renaming keeps -/

/-- The text under a key, if the key is that of references. -/
def linkAt : Key → Value → List String
  | .str "$ref", .str ref => [ref]
  | _, _ => []

mutual

/-- The texts that stand under `$ref` anywhere in a value. -/
def linksIn : Value → List String
  | .map es => linksInMembers es
  | .list items => linksInItems items
  | _ => []

/-- The texts that stand under `$ref` in the items of a list. -/
def linksInItems : List Value → List String
  | [] => []
  | v :: rest => linksIn v ++ linksInItems rest

/-- The texts that stand under `$ref` in a mapping. -/
def linksInMembers : List (Key × Value) → List String
  | [] => []
  | (k, v) :: rest => linkAt k v ++ linksIn v ++ linksInMembers rest

end

section Links

variable {names : List (String × String)}

theorem renameAt_rename_eq_iff (k : Key) (v : Value) :
    renameAt names k (rename names v) = v ↔
      (∀ ref ∈ linkAt k v, renameRef names ref = ref) ∧ rename names v = v := by
  by_cases link : ∃ ref, k = .str "$ref" ∧ v = .str ref
  · obtain ⟨ref, rfl, rfl⟩ := link
    have kept : rename names (.str ref) = .str ref := rfl
    rw [kept, and_iff_left rfl, renameAt, linkAt, Value.str.injEq, List.forall_mem_singleton]
  · have none : linkAt k v = [] := by
      unfold linkAt
      split
      · exact absurd ⟨_, rfl, rfl⟩ link
      · rfl
    have stays : renameAt names k (rename names v) = rename names v := by
      unfold renameAt
      split
      · next ref same =>
        cases v with
        | str s => exact absurd ⟨s, rfl, rfl⟩ link
        | _ => cases same
      · rfl
    rw [stays, none, and_iff_right (List.forall_mem_nil _)]

mutual

/-- Renaming keeps a value exactly if it keeps all references in it. -/
theorem rename_eq_self_iff : ∀ v : Value,
    rename names v = v ↔ ∀ ref ∈ linksIn v, renameRef names ref = ref
  | .map es => by
    rw [rename, linksIn, ← renameMembers_eq_self_iff es]
    exact Value.map.injEq _ _ ▸ Iff.rfl
  | .list items => by
    rw [rename, linksIn, ← renameItems_eq_self_iff items]
    exact Value.list.injEq _ _ ▸ Iff.rfl
  | .null => iff_of_true rfl nofun
  | .bool _ => iff_of_true rfl nofun
  | .int _ => iff_of_true rfl nofun
  | .float _ => iff_of_true rfl nofun
  | .str _ => iff_of_true rfl nofun
  | .other _ => iff_of_true rfl nofun
  | .pair _ _ => iff_of_true rfl nofun
  | .set _ => iff_of_true rfl nofun
  | .loop _ => iff_of_true rfl nofun

theorem renameItems_eq_self_iff : ∀ items : List Value,
    renameItems names items = items ↔ ∀ ref ∈ linksInItems items, renameRef names ref = ref
  | [] => iff_of_true rfl nofun
  | v :: rest => by
    rw [renameItems, linksInItems, List.forall_mem_append, ← rename_eq_self_iff v,
      ← renameItems_eq_self_iff rest, List.cons.injEq]

theorem renameMembers_eq_self_iff : ∀ es : Entries,
    renameMembers names es = es ↔ ∀ ref ∈ linksInMembers es, renameRef names ref = ref
  | [] => iff_of_true rfl nofun
  | (k, v) :: rest => by
    rw [renameMembers, linksInMembers, List.forall_mem_append, List.forall_mem_append,
      ← rename_eq_self_iff v, ← renameMembers_eq_self_iff rest, ← renameAt_rename_eq_iff,
      List.cons.injEq, Prod.mk.injEq, and_iff_right rfl]

end

end Links

/-- A reference is kept if no component that it names gets another name. -/
theorem renameRef_renames_eq_self_iff {d : Document} {ref : String} :
    renameRef d.renames ref = ref ↔
      ∀ name, componentOf? ref = some name → d.newName name = name := by
  rw [renameRef]
  cases component : componentOf? ref with
  | none =>
    refine iff_of_true rfl fun name named => ?_
    cases named
  | some name =>
    obtain rfl := eq_append_of_componentOf? component
    simp only [Option.bind_some, Option.some.injEq, forall_eq', newName]
    cases d.renames.lookup name with
    | none => exact iff_of_true rfl rfl
    | some new =>
      show Schema.refPrefix ++ new = Schema.refPrefix ++ name ↔ new = name
      rw [← String.toList_inj, String.toList_append, String.toList_append,
        List.append_cancel_left_eq, String.toList_inj]

/-! ### Normalising -/

section Normalize

variable (times : Place → Nat)

theorem getElem?_normalizeItems (items : List Value) (n index : Nat) (place : Place) :
    (normalizeItems times items index place)[n]? =
      items[n]?.map fun v => normalize times v (.item (index + n) :: place) := by
  induction items generalizing n index with
  | nil => rfl
  | cons v rest ih =>
    rw [normalizeItems]
    cases n with
    | zero => rfl
    | succ n =>
      rw [List.getElem?_cons_succ, List.getElem?_cons_succ, ih, Nat.add_right_comm, Nat.add_assoc]

/-- What stands under a key where an entry is updated to the same value. -/
theorem lookup_updateEntry {name : String} {f : Value → Value} {es : Entries} {k : Key} {w : Value}
    (found : es.lookup k = some w) (same : k = .str name → f w = w) :
    List.lookup k (updateEntry name f es) = some w := by
  rw [updateEntry_eq_map, lookup_map_entries fun k v => if k = .str name then f v else v, found,
    Option.map_some]
  split
  · next here => rw [same here]
  · rfl

/-- A schema under any key, and data under their keywords, are normalised where they stand. -/
theorem lookup_normalized {es : Entries} {k : Key} {w : Value} (found : es.lookup k = some w)
    (spared : w.isMap = true ∨ k ≠ .str "type" ∧ k ≠ .str "nullable") (place : Place) :
    List.lookup k (normalized times es place) = some (normalize times w (.entry k :: place)) := by
  have members : List.lookup k (normalizeMembers times es place) =
      some (normalize times w (.entry k :: place)) := by
    rw [normalizeMembers_eq_map,
      lookup_map_entries fun k v => normalize times v (.entry k :: place), found]
    rfl
  have isMap (type : k = .str "type") : w.isMap = true := by
    rcases spared with map | ⟨other, -⟩
    · exact map
    · exact absurd type other
  rw [normalized_eq]
  split
  · next moves =>
    have other : k ≠ .str "nullable" := by
      rcases spared with map | ⟨-, other⟩
      · rintro rfl
        have true := isTrue_of_movesNull moves
        rw [Entries.get, find?_eq_lookup, found, Option.getD_some] at true
        cases w with
        | bool b => cases map
        | _ => cases true
      · exact other
    refine lookup_updateEntry ((lookup_erase_of_ne other _).trans members) fun type => ?_
    cases w with
    | map ws => rfl
    | _ => cases isMap type
  · refine lookup_updateEntry members fun type => ?_
    cases w with
    | map ws => rfl
    | _ => cases isMap type

theorem spared_of_admits {h : Holding} {k : Key} {w : Value}
    (admits : (h.after (.entry k)).Admits w) :
    w.isMap = true ∨ k ≠ .str "type" ∧ k ≠ .str "nullable" := by
  cases h with
  | schema =>
    refine .inr ⟨?_, ?_⟩ <;>
    · rintro rfl
      exact admits.elim
  | properties | definitions => exact .inl admits
  | schemas | datum | data | other => exact admits.elim

theorem staysInPlace_normalize : StaysInPlace (normalize times) := by
  intro h u w step place member admits
  cases step with
  | item n =>
    cases u with
    | list items =>
      have found : items[n]? = some w := member
      show (normalizeItems times items 0 place)[n]? = _
      rw [getElem?_normalizeItems, found, Option.map_some, Nat.zero_add]
    | _ => cases member
  | entry k =>
    cases u with
    | map es => exact lookup_normalized times member (spared_of_admits admits) place
    | _ => cases member

end Normalize

/-! ### Documents -/

/-- Whether the data in all schemas of a document stand unchanged in those of another one. -/
def KeepsAll (d d' : Document) : Prop := List.Forall₂ KeepsData d.schemaRoots d'.schemaRoots

theorem isSchema_normalize (times : Place → Nat) (v : Value) (place : Place) :
    isSchema (normalize times v place) = isSchema v := by
  cases v <;> rfl

theorem exists_normalizeNames_ok {d : Document} (finite : d.IsFinite) :
    ∃ d', (normalizeNames d).result = .ok d' := by
  rw [normalizeNames_result, if_neg (Bool.eq_false_iff.1 finite)]
  split
  · exact ⟨d, rfl⟩
  · exact ⟨d.renamed, rfl⟩

/-- Giving names keeps all data if it keeps all references among them. -/
theorem keepsAll_of_normalizeNames_iff {d d' : Document}
    (ok : (normalizeNames d).result = .ok d') :
    KeepsAll d d' ↔ ∀ v ∈ d.schemaRoots, ∀ w, IsDatum v w → ∀ ref ∈ linksIn w, ∀ name,
      componentOf? ref = some name → d.newName name = name := by
  rw [KeepsAll, (isRenamed_of_ok ok).roots, List.forall₂_map_right_iff, List.forall₂_same]
  refine forall₂_congr fun v _ => ?_
  rw [keepsData_iff (staysInPlace_rename d.renames) v []]
  simp only [rename_eq_self_iff, renameRef_renames_eq_self_iff]
  constructor
  · rintro ⟨data, -⟩ w ⟨place, holds, found⟩
    exact data place w holds found
  · intro data
    refine ⟨fun place w holds found => data w ⟨place, holds, found⟩, fun place ps _ _ => ?_⟩
    exact ⟨_, rfl, by rw [renameMembers_eq_map, List.map_map]; rfl⟩

theorem keepsAll_normalizedSchemas_iff (d : Document) :
    KeepsAll d d.normalizedSchemas ↔
      ∀ x ∈ d.rootSpots, KeepsData x.value (normalize d.timesAt x.value x.place) := by
  rw [KeepsAll, schemaRoots, schemaRoots, normalizedSchemas,
    rootSpots_mapRoots fun x => isSchema_normalize _ x.value x.place, List.map_map,
    List.forall₂_map_left_iff, List.forall₂_map_right_iff, List.forall₂_same]
  rfl

/-- Normalising keeps all data if none of them is rewritten and no properties lose their names. -/
theorem keepsAll_of_normalizeSchemas_iff {d d' : Document}
    (ok : (normalizeSchemas d).result = .ok d') :
    KeepsAll d d' ↔ ∀ v ∈ d.schemaRoots, (∀ w, IsDatum v w → isSettled w = true) ∧
      ∀ ps, IsProperties v ps → movesNull ps = false := by
  obtain ⟨-, rfl⟩ := normalizeSchemas_result_eq_ok_iff.1 ok
  rw [keepsAll_normalizedSchemas_iff, schemaRoots, List.forall_mem_map]
  refine forall₂_congr fun x mem => ?_
  rw [keepsData_iff (staysInPlace_normalize d.timesAt) x.value x.place]
  constructor
  · rintro ⟨data, names⟩
    refine ⟨?_, ?_⟩
    · rintro w ⟨place, holds, found⟩
      exact (normalize_eq_self_iff ((covers_timesAt mem).at? found)).1 (data place w holds found)
    · rintro ps ⟨place, holds, found⟩
      obtain ⟨ps', changed, same⟩ := names place ps holds found
      rw [normalize_map, Value.map.injEq] at changed
      rw [← changed] at same
      exact map_fst_normalized_iff.1 same
  · rintro ⟨data, names⟩
    refine ⟨fun place w holds found => ?_, fun place ps holds found => ?_⟩
    · exact normalize_eq_self _ (data w ⟨place, holds, found⟩) _
    · exact ⟨_, rfl, map_fst_normalized_iff.2 (names ps ⟨place, holds, found⟩)⟩

/-- **Which data passes keep.** Both passes end for a document whose schemas can be walked through.
Giving names keeps the data in its schemas exactly if no reference among them is to a component
that gets another name, however deep in a value it stands. Normalising keeps them exactly if no
mapping among them is written like a schema with `nullable` beside `type` or with a `type` in a list
of its own, and no object has properties called `nullable` and `type`, the one being `true`. -/
theorem passes_keepAll_iff (d : Document) :
    (d.IsFinite → (∃ d', (normalizeNames d).result = .ok d') ∧
      ∃ d', (normalizeSchemas d).result = .ok d') ∧
    (∀ d', (normalizeNames d).result = .ok d' → (KeepsAll d d' ↔
      ∀ v ∈ d.schemaRoots, ∀ w, IsDatum v w → ∀ ref ∈ linksIn w, ∀ name,
        componentOf? ref = some name → d.newName name = name)) ∧
    ∀ d', (normalizeSchemas d).result = .ok d' → (KeepsAll d d' ↔
      ∀ v ∈ d.schemaRoots, (∀ w, IsDatum v w → isSettled w = true) ∧
        ∀ ps, IsProperties v ps → movesNull ps = false) := by
  refine ⟨fun finite => ⟨exists_normalizeNames_ok finite, ?_⟩, ?names, ?schemas⟩
  · exact ⟨_, normalizeSchemas_result_eq_ok_iff.2 ⟨finite, rfl⟩⟩
  case names => exact fun d' ok => keepsAll_of_normalizeNames_iff ok
  case schemas => exact fun d' ok => keepsAll_of_normalizeSchemas_iff ok

theorem passes_keepAll_iff_of_pet :
    let tag : Value := .map [(.str "default", .map [(.str "type", .list [.str "x"])])]
    let d := ofSchemas [("Pet", .map [(.str "properties", .map [(.str "tag", tag)])])]
    d.IsFinite ∧ (∃ d', (normalizeNames d).result = .ok d' ∧ KeepsAll d d') ∧
      ∃ d', (normalizeSchemas d).result = .ok d' ∧ ¬KeepsAll d d' := by
  intro tag d
  have finite : d.IsFinite := by decide
  obtain ⟨ends, names, schemas⟩ := passes_keepAll_iff d
  obtain ⟨⟨d', ok⟩, d'', ok'⟩ := ends finite
  refine ⟨finite, ⟨d', ok, (names d' ok).2 ?_⟩, d'', ok', fun keeps => ?_⟩
  · have same : d.renames.all (fun n => n.1 == n.2) = true := by decide +kernel
    intro v _ w _ ref _
    exact renameRef_renames_eq_self_iff.1 (renameRef_eq_self same ref)
  · have datum : IsDatum (.map [(.str "properties", .map [(.str "tag", tag)])])
        (.map [(.str "type", .list [.str "x"])]) :=
      ⟨[.entry (.str "default"), .entry (.str "tag"), .entry (.str "properties")], by decide, rfl⟩
    have settled := ((schemas d'' ok').1 keeps _ (List.mem_singleton_self _)).1 _ datum
    exact absurd settled (by decide)

/-- A constant that looks like a schema is normalised, and so are the properties `nullable` and
`type` of a column. A constant that looks like a reference is renamed. -/
theorem passes_change_data :
    let flag (type : Value) : Value := .map [(.str "const", .map [(.str "type", type)])]
    let column (ps : Entries) : Value := .map [(.str "properties", .map ps)]
    let word : Key × Value := (.str "type", .map [(.str "type", .str "string")])
    let link (name : String) : Value :=
      .map [(.str "const", .map [(.str "$ref", .str (Schema.refPrefix ++ name))])]
    let d := ofSchemas [("Flag", flag (.list [.str "x"])),
      ("Column", column [(.str "nullable", .bool true), word])]
    let e := ofSchemas [("flag", link "flag")]
    (∃ d', (normalizeSchemas d).result = .ok d' ∧
      d'.schemaRoots = [flag (.str "x"), column [word]] ∧
      ¬KeepsData (flag (.list [.str "x"])) (flag (.str "x")) ∧
      ¬KeepsData (column [(.str "nullable", .bool true), word]) (column [word])) ∧
    ∃ e', (normalizeNames e).result = .ok e' ∧ e'.schemaRoots = [link "Flag"] ∧
      ¬KeepsData (link "flag") (link "Flag") := by
  intro flag column word link d e
  have finite : d.IsFinite := by decide
  have named : (normalizeNames e).result = .ok e.renamed := by
    rw [normalizeNames_result, if_neg (by decide +kernel), if_neg (by decide +kernel)]
  have ref : renameRef e.renames (Schema.refPrefix ++ "flag") = Schema.refPrefix ++ "Flag" := by
    decide +kernel
  have roots : e.renamed.schemaRoots = [link "Flag"] := by
    rw [schemaRoots_renamed]
    show [Value.map [(.str "const", .map [(.str "$ref",
      .str (renameRef e.renames (Schema.refPrefix ++ "flag")))])]] = _
    rw [ref]
  have const : holdingAt [.entry (.str "const")] = .datum := by decide
  have properties : holdingAt [.entry (.str "properties")] = .properties := by decide
  refine ⟨⟨d.normalizedSchemas, normalizeSchemas_result_eq_ok_iff.2 ⟨finite, rfl⟩, rfl, ?_, ?_⟩,
    e.renamed, named, roots, ?_⟩
  · intro keeps
    have kept := keeps.data _ _ const rfl
    cases kept
  · intro keeps
    obtain ⟨ps', found, same⟩ := keeps.names _ _ properties rfl
    cases found
    exact absurd same (by decide)
  · intro keeps
    have kept := congrArg (Option.map refs) (keeps.data _ _ const rfl)
    exact absurd kept (by decide)

end ClientGen.Document
