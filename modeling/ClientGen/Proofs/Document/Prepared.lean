import ClientGen.Proofs.Document.Renaming
import ClientGen.Proofs.Name.Pascal
import ClientGen.Proofs.Report.Matching

/-!
# Prepared documents

The names that components get are spelled like names of types (`IsRenamed.isTypeName`), with a
number where one is taken. Whether such a name is its own type name can be read off it. A second
run leaves a document as it is if all of them are (`normalizeNames_of_typeName_eq_self`), and only
then (`typeName_eq_self_of_kept`). So a name such as `a_b` is not settled: it becomes `AB`, which
becomes `Ab` where a declaration or a reference is named after it, or where the pass is run once
more (`normalizeNames_moves_again`).

A document is prepared if it holds what is needed (`IsValid`) and its schemas can be walked through
(`IsFinite`). Then it is the document with new names, whose schemas are normalised
(`prepare_result_eq_ok_iff`), so its components are named like types (`isTypeName_of_prepare`).
-/

namespace ClientGen.Document

open Name (IsTypeName tellsWords typeName)
open Report (bind_result_eq_ok_iff result_of_ite)

/-! ### New names -/

/-- A new name is a type name, which gets a number if it is taken. -/
theorem exists_of_mem_renamesAfter {taken names : List String} {p : String × String}
    (mem : p ∈ renamesAfter taken names) :
    ∃ others, p.2 = Name.distinctFrom others (typeName p.1) := by
  induction names generalizing taken with
  | nil => exact absurd mem List.not_mem_nil
  | cons name rest ih =>
    rw [renamesAfter] at mem
    rcases List.mem_cons.1 mem with rfl | mem
    · exact ⟨taken, rfl⟩
    · exact ih mem

theorem exists_newName_eq {d : Document} {c : String × Value} (mem : c ∈ d.schemas) :
    ∃ others, d.newName c.1 = Name.distinctFrom others (typeName c.1) := by
  have found := lookup_renames d (List.mem_map_of_mem mem)
  exact exists_of_mem_renamesAfter (mem_of_lookup found)

/-- The names of components after the pass are spelled like names of types. -/
theorem IsRenamed.isTypeName {d d' : Document} (h : IsRenamed d d') :
    ∀ c ∈ d'.schemas, IsTypeName c.1 := by
  rw [h.schemas]
  refine List.forall_mem_map.2 fun c mem => ?_
  obtain ⟨others, new⟩ := exists_newName_eq mem
  change IsTypeName (d.newName c.1)
  rw [new]
  exact (Name.isTypeName_typeName c.1).distinctFrom others

/-- Components with distinct names have distinct new names. -/
theorem IsRenamed.nodup_names {d d' : Document} (h : IsRenamed d d')
    (distinct : (d.schemas.map (·.1)).Nodup) : (d'.schemas.map (·.1)).Nodup := by
  have names : d'.schemas.map (·.1) = (d.schemas.map (·.1)).map d.newName := by
    rw [h.schemas, List.map_map, List.map_map]
    rfl
  rw [names]
  exact distinct.map_on fun _ known _ known' same => newName_inj d known known' same

/-! ### A second run -/

/-- Distinct names that are their own type names are kept, if none of them is taken. -/
theorem renamesAfter_self {taken names : List String} (distinct : names.Nodup)
    (free : ∀ name ∈ names, name ∉ taken) (own : ∀ name ∈ names, typeName name = name) :
    ∀ p ∈ renamesAfter taken names, p.1 = p.2 := by
  induction names generalizing taken with
  | nil => exact fun p mem => absurd mem List.not_mem_nil
  | cons name rest ih =>
    obtain ⟨new, distinct⟩ := List.nodup_cons.1 distinct
    obtain ⟨here, free⟩ := List.forall_mem_cons.1 free
    obtain ⟨stays, own⟩ := List.forall_mem_cons.1 own
    have kept : Name.distinctFrom taken (typeName name) = name := by
      rw [stays, Name.distinctFrom, if_neg (by simpa using here)]
    rw [renamesAfter, kept]
    refine List.forall_mem_cons.2 ⟨rfl, ih distinct (fun other mem used => ?_) own⟩
    rcases List.mem_cons.1 used with rfl | used
    · exact new mem
    · exact free other mem used

/-- Where all names are distinct and their own type names, the pass leaves the document as it is. -/
theorem normalizeNames_of_typeName_eq_self {d : Document} (distinct : (d.schemas.map (·.1)).Nodup)
    (own : ∀ c ∈ d.schemas, typeName c.1 = c.1) : (normalizeNames d).result = .ok d := by
  have kept : d.renames.all (fun n => n.1 == n.2) = true := by
    refine List.all_eq_true.2 fun p mem => beq_iff_eq.2 ?_
    exact renamesAfter_self distinct (fun _ _ => List.not_mem_nil)
      (List.forall_mem_map.2 own) p mem
  rw [normalizeNames_result, if_pos kept]

/-- What the pass leaves as it is has names that are their own type names. -/
theorem typeName_eq_self_of_kept {d : Document} (spelled : ∀ c ∈ d.schemas, IsTypeName c.1)
    (kept : (normalizeNames d).result = .ok d) : ∀ c ∈ d.schemas, typeName c.1 = c.1 := by
  intro c mem
  have renamed := (isRenamed_of_ok kept).schemas
  have same : d.newName c.1 = c.1 := by
    have names := congrArg (List.map Prod.fst) renamed
    rw [List.map_map] at names
    exact (List.map_inj_left.1 names c mem).symm
  obtain ⟨others, new⟩ := exists_newName_eq mem
  exact Name.typeName_eq_self_of_distinctFrom (spelled c mem) (new.symm.trans same)

/-- **Which names are settled.** After the pass, a name is its own type name exactly if a small
letter follows wherever a capital follows another one. A second run leaves the document as it is
exactly if all names are. -/
theorem normalizeNames_settles {d d' : Document} (ok : (normalizeNames d).result = .ok d') :
    (∀ c ∈ d'.schemas, typeName c.1 = c.1 ↔ tellsWords c.1.toList = true) ∧
    ((d.schemas.map (·.1)).Nodup → ((normalizeNames d').result = .ok d' ↔
      ∀ c ∈ d'.schemas, tellsWords c.1.toList = true)) := by
  have renamed := isRenamed_of_ok ok
  have stays : ∀ c ∈ d'.schemas, typeName c.1 = c.1 ↔ tellsWords c.1.toList = true :=
    fun c mem => Name.typeName_eq_self_iff (renamed.isTypeName c mem)
  refine ⟨stays, fun distinct => ?_⟩
  constructor
  · intro kept c mem
    exact (stays c mem).1 (typeName_eq_self_of_kept renamed.isTypeName kept c mem)
  · intro told
    exact normalizeNames_of_typeName_eq_self (renamed.nodup_names distinct)
      fun c mem => (stays c mem).2 (told c mem)

theorem normalizeNames_settles_of_words :
    let d := ofSchemas [("pet_status", .map []), ("2fa", .map []), ("PetStatus", .map [])]
    ∃ d', (normalizeNames d).result = .ok d' ∧
      d'.schemas.map (·.1) = ["PetStatus", "_2fa", "PetStatus2"] ∧
      (∀ c ∈ d'.schemas, typeName c.1 = c.1 ↔ tellsWords c.1.toList = true) ∧
      (d.schemas.map (·.1)).Nodup ∧ ((normalizeNames d').result = .ok d' ↔
        ∀ c ∈ d'.schemas, tellsWords c.1.toList = true) := by
  intro d
  have ok : (normalizeNames d).result = .ok d.renamed := by
    rw [normalizeNames_result, if_neg (by decide +kernel), if_neg (by decide +kernel)]
  have distinct : (d.schemas.map (·.1)).Nodup := by decide
  obtain ⟨stays, again⟩ := normalizeNames_settles ok
  exact ⟨d.renamed, ok, by decide +kernel, stays, distinct, again distinct⟩

/-- The component `a_b` becomes `AB`, which is not its own type name and becomes `Ab` when the pass
is run once more. -/
theorem normalizeNames_moves_again :
    let d := ofSchemas [("a_b", .map [])]
    ∃ d', (normalizeNames d).result = .ok d' ∧ d'.schemas.map (·.1) = ["AB"] ∧
      typeName "AB" = "Ab" ∧
      ∃ d'', (normalizeNames d').result = .ok d'' ∧ d''.schemas.map (·.1) = ["Ab"] := by
  intro d
  have ok : (normalizeNames d).result = .ok d.renamed := by
    rw [normalizeNames_result, if_neg (by decide +kernel), if_neg (by decide +kernel)]
  have again : (normalizeNames d.renamed).result = .ok d.renamed.renamed := by
    rw [normalizeNames_result, if_neg (by decide +kernel), if_neg (by decide +kernel)]
  exact ⟨d.renamed, ok, by decide +kernel, by decide +kernel, d.renamed.renamed, again,
    by decide +kernel⟩

/-! ### Single passes -/

/-- Whether a document holds what generation needs. -/
structure IsValid (d : Document) : Prop where
  titled : d.info.title.isEmpty = false
  versioned : d.info.version.isEmpty = false
  mappings : ∀ c ∈ d.schemas, c.2.isMap = true

/-- Whether every schema of a document can be walked through. -/
def IsFinite (d : Document) : Prop := d.schemaRoots.any Value.isEndless = false

instance (d : Document) : Decidable d.IsFinite :=
  inferInstanceAs (Decidable (d.schemaRoots.any Value.isEndless = false))

theorem validateSchemas_result_eq_ok_iff {schemas : Schema.Components} :
    (validateSchemas schemas).result = .ok () ↔ ∀ c ∈ schemas, c.2.isMap = true := by
  induction schemas with
  | nil => exact iff_of_true rfl nofun
  | cons c rest ih =>
    rw [validateSchemas, List.forall_mem_cons]
    split
    · next map => rw [ih, and_iff_right map]
    · next noMap => exact iff_of_false nofun fun all => noMap all.1

theorem validate_result_eq_ok_iff {d d' : Document} :
    (validate d).result = .ok d' ↔ IsValid d ∧ d' = d := by
  constructor
  · intro ended
    rw [validate] at ended
    dsimp only at ended
    split at ended
    · cases ended
    · next titled =>
      split at ended
      · cases ended
      · next versioned =>
        obtain ⟨⟨⟩, mappings, ended⟩ := bind_result_eq_ok_iff.1 (result_of_ite ended)
        refine ⟨⟨by simpa using titled, by simpa using versioned, ?_⟩, (Except.ok.inj ended).symm⟩
        exact validateSchemas_result_eq_ok_iff.1 mappings
  · rintro ⟨⟨titled, versioned, mappings⟩, rfl⟩
    have checked : (validateSchemas d'.schemas >>= fun _ => pure d').result = .ok d' :=
      bind_result_eq_ok_iff.2 ⟨(), validateSchemas_result_eq_ok_iff.2 mappings, rfl⟩
    rw [validate, if_neg (by simp [titled])]
    dsimp only
    rw [if_neg (by simp [versioned])]
    split
    · exact bind_result_eq_ok_iff.2 ⟨(), rfl, checked⟩
    · exact checked

theorem requireFinite_result_eq_ok_iff {d : Document} :
    (requireFinite d).result = .ok () ↔ IsFinite d := by
  rw [requireFinite, IsFinite]
  split
  · next endless =>
    constructor
    · intro ended
      cases ended
    · simp [endless]
  · next finite => exact iff_of_true rfl (by simpa using finite)

theorem reportReferences_result_eq_ok_iff {d d' : Document} :
    (reportReferences d).result = .ok d' ↔ IsFinite d ∧ d' = d := by
  rw [reportReferences, bind_result_eq_ok_iff, ← requireFinite_result_eq_ok_iff]
  constructor
  · rintro ⟨⟨⟩, finite, ended⟩
    exact ⟨finite, (Except.ok.inj ended).symm⟩
  · rintro ⟨finite, rfl⟩
    exact ⟨(), finite, rfl⟩

/-- The document whose schemas are normalised. -/
def normalizedSchemas (d : Document) : Document :=
  d.mapRoots fun x => normalize d.timesAt x.value x.place

theorem normalizeSchemas_result_eq_ok_iff {d d' : Document} :
    (normalizeSchemas d).result = .ok d' ↔ IsFinite d ∧ d' = d.normalizedSchemas := by
  rw [normalizeSchemas, bind_result_eq_ok_iff, ← requireFinite_result_eq_ok_iff]
  constructor
  · rintro ⟨⟨⟩, finite, ended⟩
    exact ⟨finite, (Except.ok.inj ended).symm⟩
  · rintro ⟨finite, rfl⟩
    exact ⟨(), finite, rfl⟩

/-! ### All passes -/

/-- **What a prepared document is.** -/
theorem prepare_result_eq_ok_iff {d d' : Document} :
    d.prepare.result = .ok d' ↔ IsValid d ∧ IsFinite d ∧
      ∃ named, (normalizeNames d).result = .ok named ∧ IsFinite named ∧
        d' = named.normalizedSchemas := by
  simp only [prepare, Pass.all, applyPasses, Pass.apply, bind_pure, bind_result_eq_ok_iff,
    validate_result_eq_ok_iff, reportReferences_result_eq_ok_iff, normalizeSchemas_result_eq_ok_iff]
  constructor
  · rintro ⟨_, ⟨valid, rfl⟩, _, ⟨finite, rfl⟩, named, renamed, finite', rfl⟩
    exact ⟨valid, finite, named, renamed, finite', rfl⟩
  · rintro ⟨valid, finite, named, renamed, finite', rfl⟩
    exact ⟨d, ⟨valid, rfl⟩, d, ⟨finite, rfl⟩, named, renamed, finite', rfl⟩

theorem schemas_normalizedSchemas (d : Document) : d.normalizedSchemas.schemas =
    d.components.map fun c => (c.1, normalize d.timesAt c.2.value c.2.place) := by
  rw [normalizedSchemas, Document.schemas, mapRoots, List.map_map]
  rfl

/-- **The components of a prepared document are named like types.** -/
theorem isTypeName_of_prepare {d d' : Document} (prepared : d.prepare.result = .ok d') :
    ∀ c ∈ d'.schemas, IsTypeName c.1 := by
  obtain ⟨-, -, named, renamed, -, rfl⟩ := prepare_result_eq_ok_iff.1 prepared
  rw [schemas_normalizedSchemas]
  refine List.forall_mem_map.2 fun c mem => ?_
  exact (isRenamed_of_ok renamed).isTypeName (c.1, c.2.value) (List.mem_map.2 ⟨c, mem, rfl⟩)

/-! ### Documents of schemas -/

/-- A document that holds component schemas, and what it needs to be valid. -/
def titledSchemas (schemas : Schema.Components) : Document :=
  { ofSchemas schemas with info := ⟨"Pets", "1", .null⟩ }

theorem prepare_titledSchemas {schemas : Schema.Components}
    (valid : (titledSchemas schemas).IsValid) (finite : (titledSchemas schemas).IsFinite)
    (finite' : (titledSchemas schemas).renamed.IsFinite)
    (moved : (titledSchemas schemas).renames.all (fun n => n.1 == n.2) = false) :
    (titledSchemas schemas).prepare.result =
      .ok (titledSchemas schemas).renamed.normalizedSchemas := by
  refine prepare_result_eq_ok_iff.2 ⟨valid, finite, _, ?_, finite', rfl⟩
  have walked : ¬ (titledSchemas schemas).schemaRoots.any Value.isEndless = true := by
    rw [finite]
    exact Bool.false_ne_true
  rw [normalizeNames_result, if_neg (by simp [moved]), if_neg walked]

end ClientGen.Document
