import ClientGen.Proofs.Document.Prepared
import ClientGen.Proofs.Schema.Unresolved
import ClientGen.Proofs.Value.Shown

/-!
# References that the report overlooks

Before any type is made of the schemas of a document, references that leave it and those to missing
components are reported (`reportReferences_eq_nil_iff`). The schemas that are read later are among
those that the report walks through, so their references are too (`refs_subset_of_mem_schemasRead`).

The two do not agree on which references resolve. One that stays in the document and is to no
component schema is not reported, and neither is one that is no text, but both give a warning when a
type or a declaration is made of them. These are all that is overlooked
(`reportReferences_overlooks`).
-/

namespace ClientGen.Document

open Schema

/-! ### References in the parts of a schema -/

theorem refs_subset_refsOfMembers {es : Entries} {e : Key × Value} (mem : e ∈ es) :
    refs e.2 ⊆ refsOfMembers es := by
  induction es with
  | nil => cases mem
  | cons e' rest ih =>
    intro ref listed
    rw [refsOfMembers, List.mem_append]
    rcases List.mem_cons.1 mem with rfl | mem
    · exact .inl listed
    · exact .inr (ih mem listed)

theorem refs_subset_refsOfItems {items : List Value} {v : Value} (mem : v ∈ items) :
    refs v ⊆ refsOfItems items := by
  induction items with
  | nil => cases mem
  | cons w rest ih =>
    intro ref listed
    rw [refsOfItems, List.mem_append]
    rcases List.mem_cons.1 mem with rfl | mem
    · exact .inl listed
    · exact .inr (ih mem listed)

theorem mem_of_find? {es : Entries} {name : String} {v : Value} (found : es.find? name = some v) :
    (Key.str name, v) ∈ es := by
  induction es with
  | nil => cases found
  | cons e rest ih =>
    obtain ⟨k, w⟩ := e
    rw [Entries.find?] at found
    split at found
    · next here =>
      obtain rfl := Option.some.inj found
      exact here ▸ List.mem_cons_self
    · exact List.mem_cons_of_mem _ (ih found)

theorem refs_get_subset (es : Entries) (name : String) : refs (es.get name) ⊆ refs (.map es) := by
  intro ref listed
  rw [Entries.get] at listed
  cases found : es.find? name with
  | none =>
    rw [found] at listed
    cases listed
  | some v =>
    rw [found] at listed
    rw [refs, List.mem_append]
    exact .inr (refs_subset_refsOfMembers (mem_of_find? found) listed)

theorem refs_item_subset {v part : Value} (mem : part ∈ itemsOf v) : refs part ⊆ refs v := by
  cases v with
  | list items => exact refs_subset_refsOfItems mem
  | _ => cases mem

theorem refs_member_subset {v part : Value} (mem : part ∈ membersOf v) : refs part ⊆ refs v := by
  cases v with
  | map ps =>
    obtain ⟨p, among, rfl⟩ := List.mem_map.1 mem
    intro ref listed
    rw [refs, List.mem_append]
    exact .inr (refs_subset_refsOfMembers among listed)
  | _ => cases mem

theorem refs_objectPart_subset {es : Entries} {part : Value} (mem : part ∈ objectParts es) :
    refs part ⊆ refs (.map es) := by
  rcases List.mem_append.1 mem with property | additional
  · exact List.Subset.trans (refs_member_subset property) (refs_get_subset es _)
  · unfold additionalParts at additional
    split at additional
    · next e fs value =>
      rw [List.mem_singleton.1 additional, ← value]
      exact refs_get_subset es _
    · cases additional

theorem refs_arrayPart_subset {es : Entries} {part : Value} (mem : part ∈ arrayParts es) :
    refs part ⊆ refs (.map es) := by
  unfold arrayParts at mem
  split at mem
  · unfold itemParts at mem
    split at mem
    · cases mem
    · cases mem
    · rw [List.mem_singleton.1 mem]
      exact refs_get_subset es _
  · exact List.Subset.trans (refs_item_subset mem) (refs_get_subset es _)

/-- The references in a schema that lowering goes on to are references of the schema around it. -/
theorem refs_part_subset {es : Entries} {part : Value} (mem : part ∈ partsOf es) :
    refs part ⊆ refs (.map es) := by
  unfold partsOf at mem
  split at mem
  case isFalse => cases mem
  rcases List.mem_append.1 mem with alternative | own
  · unfold alternativesOf at alternative
    split at alternative
    · obtain ⟨keyword, -, among⟩ := List.mem_flatMap.1 alternative
      exact List.Subset.trans (refs_item_subset among) (refs_get_subset es _)
    · cases alternative
  · obtain ⟨type, -, among⟩ := List.mem_flatMap.1 own
    unfold partsAs at among
    split at among
    · exact refs_arrayPart_subset among
    · split at among
      · exact refs_objectPart_subset among
      · cases among

/-- The references in a schema that is read are among those of the schema that it stands in. -/
theorem refs_subset_of_mem_schemasRead {budget : Nat} {v : Value} {es : Entries}
    (mem : es ∈ schemasRead budget v) : refs (.map es) ⊆ refs v := by
  induction budget generalizing v with
  | zero => cases v <;> cases mem
  | succ budget ih =>
    cases v with
    | map fs =>
      rw [schemasRead, List.mem_cons, List.mem_flatMap] at mem
      rcases mem with rfl | ⟨part, among, below⟩
      · exact List.Subset.refl _
      · exact List.Subset.trans (ih below) (refs_part_subset among)
    | _ => cases mem

theorem mem_refs_of_find? {es : Entries} {ref : String}
    (refers : Entries.find? "$ref" es = some (.str ref)) : ref ∈ refs (.map es) := by
  rw [refs, refers]
  exact List.mem_append_left _ (List.mem_singleton_self ref)

theorem find?_eq_of_str?_get {es : Entries} {name s : String}
    (text : (es.get name).str? = some s) : es.find? name = some (.str s) := by
  rw [Entries.get] at text
  cases found : es.find? name with
  | none =>
    rw [found] at text
    cases text
  | some v =>
    rw [found] at text
    cases v with
    | str t => exact congrArg (some ∘ Value.str) (Option.some.inj text)
    | _ => cases text

theorem mem_refs_of_read {budget : Nat} {v : Value} {es : Entries} {ref : String}
    (read : es ∈ schemasRead budget v) (refers : (es.get "$ref").str? = some ref) : ref ∈ refs v :=
  refs_subset_of_mem_schemasRead read (mem_refs_of_find? (find?_eq_of_str?_get refers))

/-! ### Documents of which nothing is reported -/

/-- Nothing is reported of a document exactly if all its schemas can be walked through, and all
references in them stay in the document and name no component that is missing. -/
theorem reportReferences_eq_nil_iff {d : Document} :
    reportReferences d = ⟨[], .ok d⟩ ↔ d.IsFinite ∧
      ∀ ref ∈ d.schemaRoots.flatMap refs, isExternal ref = false ∧ isDangling d ref = false := by
  constructor
  · intro silent
    have finite : d.IsFinite :=
      (reportReferences_result_eq_ok_iff.1 (congrArg Report.result silent)).1
    have notes : ((d.schemaRoots.flatMap refs).filter isExternal).map Warning.externalReference ++
        ((d.schemaRoots.flatMap refs).filter (isDangling d)).map Warning.unresolvedSchema = [] := by
      have told := congrArg Report.notes silent
      rw [reportReferences, requireFinite, finite] at told
      exact told
    obtain ⟨external, dangling⟩ := List.append_eq_nil_iff.1 notes
    rw [List.map_eq_nil_iff, List.filter_eq_nil_iff] at external dangling
    refine ⟨finite, fun ref mem => ⟨?_, ?_⟩⟩
    · simpa using external ref mem
    · simpa using dangling ref mem
  · rintro ⟨finite, unreported⟩
    have external : (d.schemaRoots.flatMap refs).filter isExternal = [] :=
      List.filter_eq_nil_iff.2 fun ref mem => by simp [(unreported ref mem).1]
    have dangling : (d.schemaRoots.flatMap refs).filter (isDangling d) = [] :=
      List.filter_eq_nil_iff.2 fun ref mem => by simp [(unreported ref mem).2]
    rw [reportReferences, requireFinite, finite]
    dsimp only
    rw [external, dangling]
    rfl

/-! ### References to something else -/

/-- Whether a reference is to something in the document that is no component schema. -/
def pointsElsewhere (ref : String) : Bool := Text.startsWith "#" ref && (componentOf? ref).isNone

/-- The warning for a schema that is read, if it refers to something else in the document. -/
def overlookedAt (es : Entries) : List Warning :=
  match (es.get "$ref").str? with
  | some ref => if pointsElsewhere ref then [.unresolvedType ref] else []
  | none => []

/-- The warnings for the schemas that are read in a schema and refer to something else in the
document. -/
def overlookedBelow (budget : Nat) (v : Value) : List Warning :=
  (schemasRead budget v).flatMap overlookedAt

/-- Whether every reference is a text and leads out of the document or to a component schema. -/
structure NamesComponents (d : Document) : Prop where
  targets : ∀ v ∈ d.schemaRoots, ∀ ref ∈ refs v, pointsElsewhere ref = false
  texts : ∀ c ∈ d.schemas, ∀ value, referenceIn c.2 = some value → value.str?.isSome = true

/-- A reference that names a component is a text. -/
theorem eq_str_of_shown {v : Value} {ref name : String} (shown : v.shown = .ok ref)
    (names : componentOf? ref = some name) : v = .str ref := by
  have display : v.display = ref := by
    rw [Value.shown] at shown
    split at shown
    · exact Except.ok.inj shown
    · cases shown
  cases v with
  | str s => exact congrArg Value.str display
  | _ =>
    rw [← display, Value.componentOf?_display rfl] at names
    cases names

theorem mem_schemaRoots_of_mem_schemas {d : Document} {c : String × Value} (mem : c ∈ d.schemas) :
    c.2 ∈ d.schemaRoots := by
  obtain ⟨x, among, rfl⟩ := List.mem_map.1 mem
  exact List.mem_map.2 ⟨x.2, List.mem_append_left _ (List.mem_map_of_mem among), rfl⟩

/-- References lead from a component to a component. -/
theorem exists_mem_of_path {components : Components} {v last : Value} {targets : List String}
    (path : Schema.Path components v targets last) (start : ∃ c ∈ components, c.2 = v) :
    ∃ c ∈ components, c.2 = last := by
  induction path with
  | here v => exact start
  | next refers names known rest ih => exact ih ⟨_, mem_of_component? known, rfl⟩

/-- Nothing is overlooked in schemas of a document whose references all name components. -/
theorem overlookedBelow_eq_nil {d : Document} (names : NamesComponents d) {v part : Value}
    (root : v ∈ d.schemaRoots) (below : refs part ⊆ refs v) (budget : Nat) :
    overlookedBelow budget part = [] := by
  refine List.flatMap_eq_nil_iff.2 fun es read => ?_
  rw [overlookedAt]
  cases refers : (es.get "$ref").str? with
  | none => rfl
  | some ref =>
    dsimp only
    rw [names.targets v root ref (below (mem_refs_of_read read refers))]
    rfl

section Silent

variable {d : Document} (silent : reportReferences d = ⟨[], .ok d⟩)

include silent

theorem not_reported {v : Value} (root : v ∈ d.schemaRoots) {ref : String} (listed : ref ∈ refs v) :
    Text.startsWith "#" ref = true ∧ isDangling d ref = false := by
  obtain ⟨inside, there⟩ :=
    (reportReferences_eq_nil_iff.1 silent).2 ref (List.mem_flatMap.2 ⟨v, root, listed⟩)
  rw [isExternal, Bool.not_eq_false'] at inside
  exact ⟨inside, there⟩

theorem unresolvedAtEnd_eq_nil (names : NamesComponents d) {c : String × Value}
    (mem : c ∈ d.schemas) (budget : Nat) (typeName : String) :
    unresolvedAtEnd (overlookedBelow budget) typeName c.2 = [] := by
  have root := mem_schemaRoots_of_mem_schemas mem
  obtain ⟨name, v⟩ := c
  cases v with
  | map es =>
    rw [unresolvedAtEnd]
    cases refers : Entries.find? "$ref" es with
    | none =>
      exact unresolvedInOwn_eq_nil (overlookedBelow_eq_nil names root (List.Subset.refl _) budget)
        fun part mem => overlookedBelow_eq_nil names root (refs_objectPart_subset mem) budget
    | some value =>
      have text := names.texts _ mem value refers
      cases value with
      | str ref =>
        have listed := mem_refs_of_find? refers
        have named := names.targets _ root ref listed
        rw [pointsElsewhere, (not_reported silent root listed).1, Bool.true_and] at named
        show (if (componentOf? ref).isNone = true then _ else _) = _
        rw [named]
        rfl
      | _ => cases text
  | _ => rfl

variable (valid : d.IsValid)

include valid

/-- A reference that is not reported and names a component names one that is there. -/
theorem component?_ne_none {v : Value} (root : v ∈ d.schemaRoots) {ref name : String}
    (listed : ref ∈ refs v) (names : componentOf? ref = some name) :
    component? d.schemas name ≠ none := by
  have there := (not_reported silent root listed).2
  rw [isDangling, names] at there
  dsimp only at there
  cases found : d.schemas.lookup name with
  | none =>
    rw [found] at there
    cases there
  | some schema =>
    have map := valid.mappings _ (mem_of_lookup found)
    rw [component?, found]
    cases schema with
    | map es => exact Option.some_ne_none es
    | _ => cases map

/-- A reference that is not reported resolves, unless it is to something else in the document. -/
theorem resolves_eq_not_pointsElsewhere {v : Value} (root : v ∈ d.schemaRoots) {ref : String}
    (listed : ref ∈ refs v) (maxDepth : Int) :
    resolves ⟨d.schemas, maxDepth⟩ ref = !pointsElsewhere ref := by
  rw [resolves, pointsElsewhere, (not_reported silent root listed).1, Bool.true_and]
  cases names : componentOf? ref with
  | none => rfl
  | some name =>
    have there := component?_ne_none silent valid root listed names
    rw [Option.filter_some, if_pos (Option.isSome_iff_ne_none.2 there)]
    rfl

/-- The warnings for a schema are those for what is overlooked in it. -/
theorem unresolvedBelow_eq {v part : Value} (root : v ∈ d.schemaRoots) (below : refs part ⊆ refs v)
    (maxDepth : Int) (budget : Nat) :
    unresolvedBelow ⟨d.schemas, maxDepth⟩ budget part = overlookedBelow budget part := by
  refine List.flatMap_congr fun es read => ?_
  rw [unresolvedAt, overlookedAt]
  cases refers : (es.get "$ref").str? with
  | none => rfl
  | some ref =>
    have listed : ref ∈ refs v := below (mem_refs_of_read read refers)
    dsimp only
    rw [resolves_eq_not_pointsElsewhere silent valid root listed]
    cases pointsElsewhere ref <;> rfl

theorem unresolvedAtEnd_eq {v : Value} (root : v ∈ d.schemaRoots) (maxDepth : Int) (budget : Nat)
    (typeName : String) :
    unresolvedAtEnd (unresolvedBelow ⟨d.schemas, maxDepth⟩ budget) typeName v =
      unresolvedAtEnd (overlookedBelow budget) typeName v := by
  cases v with
  | map es =>
    have whole := unresolvedBelow_eq silent valid root (List.Subset.refl _) maxDepth budget
    have own := unresolvedInOwn_congr whole fun part mem =>
      unresolvedBelow_eq silent valid root (refs_objectPart_subset mem) maxDepth budget
    rw [unresolvedAtEnd, unresolvedAtEnd, own]
  | _ => rfl

/-- The references of a component end at a component, and it is declared with the warnings for what
is overlooked there. -/
theorem exists_declare_gives {c : String × Value} (mem : c ∈ d.schemas) (maxDepth : Int) :
    ∃ targets, ∃ e ∈ d.schemas, Schema.Path d.schemas c.2 targets e.2 ∧ (c.1 :: targets).Nodup ∧
      Ends d.schemas (c.1 :: targets) e.2 ∧
      Gives (unresolvedAtEnd (overlookedBelow maxDepth.toNat) (Name.typeName c.1) e.2)
        (declare ⟨d.schemas, maxDepth⟩ [] c.1 c.2) := by
  obtain ⟨targets, last, path, distinct, ends⟩ :=
    exists_path_ends d.schemas (List.nodup_singleton c.1) c.2
  obtain ⟨e, among, rfl⟩ := exists_mem_of_path path ⟨c, mem, rfl⟩
  have root : e.2 ∈ d.schemaRoots := mem_schemaRoots_of_mem_schemas among
  refine ⟨targets, e, among, path, distinct, ends, ?_⟩
  rw [← unresolvedAtEnd_eq silent valid root maxDepth]
  refine declare_gives path distinct ends fun ref target refers names => ?_
  obtain ⟨name, last⟩ := e
  obtain @⟨es, value, ref, noted, refers, shown⟩ := refers
  rw [eq_str_of_shown shown names] at refers
  exact component?_ne_none silent valid root (mem_refs_of_find? refers) names

end Silent

/-- **What is overlooked.** If a document is accepted and nothing is reported of it, then the type
of a root is given with a warning for each schema in it that refers to something else in the
document than a component schema, and with no other warning of an unresolved reference. A component
is declared with those of the schema at which its references end, where it may itself refer to
something else, or not be a text. So there are none if all references name components. -/
theorem reportReferences_overlooks {d : Document} (accepted : (validate d).result = .ok d)
    (silent : reportReferences d = ⟨[], .ok d⟩) (maxDepth : Int) :
    (∀ v ∈ d.schemaRoots,
      Gives (overlookedBelow maxDepth.toNat v) (lower ⟨d.schemas, maxDepth⟩ v)) ∧
    (∀ c ∈ d.schemas, ∃ targets, ∃ e ∈ d.schemas, Schema.Path d.schemas c.2 targets e.2 ∧
      (c.1 :: targets).Nodup ∧ Ends d.schemas (c.1 :: targets) e.2 ∧
      Gives (unresolvedAtEnd (overlookedBelow maxDepth.toNat) (Name.typeName c.1) e.2)
        (declare ⟨d.schemas, maxDepth⟩ [] c.1 c.2)) ∧
    (NamesComponents d →
      (∀ v ∈ d.schemaRoots, unresolvedIn (lower ⟨d.schemas, maxDepth⟩ v) = []) ∧
      ∀ c ∈ d.schemas, unresolvedIn (declare ⟨d.schemas, maxDepth⟩ [] c.1 c.2) = []) := by
  obtain ⟨valid, -⟩ := validate_result_eq_ok_iff.1 accepted
  have roots (v : Value) (root : v ∈ d.schemaRoots) :
      Gives (overlookedBelow maxDepth.toNat v) (lower ⟨d.schemas, maxDepth⟩ v) := by
    rw [← unresolvedBelow_eq silent valid root (List.Subset.refl _) maxDepth]
    exact lower_gives _ v
  refine ⟨roots, fun c mem => exists_declare_gives silent valid mem maxDepth, fun names => ?_⟩
  constructor
  · intro v root
    have given := roots v root
    rw [overlookedBelow_eq_nil names root (List.Subset.refl _)] at given
    exact given.eq_nil
  · intro c mem
    obtain ⟨-, e, among, -, -, -, given⟩ := exists_declare_gives silent valid mem maxDepth
    rw [unresolvedAtEnd_eq_nil silent names among] at given
    exact given.eq_nil

theorem reportReferences_overlooks_nothing :
    let d := titledSchemas [
      ("Pet", .map [(.str "properties", .map [(.str "owner",
        .map [(.str "$ref", .str "#/components/schemas/Owner")])])]),
      ("Keeper", .map [(.str "$ref", .str "#/components/schemas/Owner")]),
      ("Owner", .map [(.str "type", .str "string")])]
    (validate d).result = .ok d ∧ reportReferences d = ⟨[], .ok d⟩ ∧ NamesComponents d ∧
      (∀ v ∈ d.schemaRoots, unresolvedIn (lower ⟨d.schemas, 64⟩ v) = []) ∧
      ∀ c ∈ d.schemas, unresolvedIn (declare ⟨d.schemas, 64⟩ [] c.1 c.2) = [] := by
  intro d
  have accepted : (validate d).result = .ok d :=
    validate_result_eq_ok_iff.2 ⟨⟨by decide, by decide, by decide⟩, rfl⟩
  have silent : reportReferences d = ⟨[], .ok d⟩ :=
    reportReferences_eq_nil_iff.2 ⟨by decide, by decide +kernel⟩
  have names : NamesComponents d := by
    refine ⟨by decide +kernel, fun c mem value refers => ?_⟩
    have each : ∀ c ∈ d.schemas, ∀ value ∈ referenceIn c.2, value.str?.isSome = true := by decide
    exact each c mem value refers
  exact ⟨accepted, silent, names, (reportReferences_overlooks accepted silent 64).2.2 names⟩

/-- Nothing is reported of a property that refers to a definition, but lowering its schema gives a
warning. So does the declaration of a component whose reference is no text. -/
theorem reportReferences_overlooks_definition :
    let d := titledSchemas [
      ("Pet", .map [(.str "properties", .map [(.str "tag",
        .map [(.str "$ref", .str "#/definitions/Tag")])])]),
      ("Count", .map [(.str "$ref", .int 5)])]
    (validate d).result = .ok d ∧ reportReferences d = ⟨[], .ok d⟩ ∧
      (∃ v ∈ d.schemaRoots,
        unresolvedIn (lower ⟨d.schemas, 64⟩ v) = [.unresolvedType "#/definitions/Tag"]) ∧
      ∃ c ∈ d.schemas, unresolvedIn (declare ⟨d.schemas, 64⟩ [] c.1 c.2) =
        [.unresolvedDeclaration "5" "Count"] := by
  intro d
  have silent : reportReferences d = ⟨[], .ok d⟩ :=
    reportReferences_eq_nil_iff.2 ⟨by decide, by decide +kernel⟩
  refine ⟨validate_result_eq_ok_iff.2 ⟨⟨by decide, by decide, by decide⟩, rfl⟩, silent, ?_, ?_⟩
  · exact ⟨_, List.mem_cons_self, by decide +kernel⟩
  · exact ⟨_, List.mem_cons_of_mem _ List.mem_cons_self, by decide +kernel⟩

end ClientGen.Document
