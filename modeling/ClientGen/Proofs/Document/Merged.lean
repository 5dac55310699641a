import ClientGen.Proofs.Document.Merging
import ClientGen.Proofs.Document.Operations
import ClientGen.Proofs.Document.Pointers
import ClientGen.Proofs.Schema.Notes

/-!
# Parameters of an operation

The parameters of a path stand before those of its operation. Reading goes through all these entries,
and merging keeps one parameter for each pair of a name and a location.

* **Each pair once, the last entry for it, in the order of first mention**
  (`readOperation_merges`), whatever entries are references, repeat a pair or have no name.
* An entry without a name gives no parameter and one warning, and nothing else that is read of an
  operation gives such a warning.

What merging does to parameters is traced back to the entries that they were read from
(`exists_entry`).
-/

namespace ClientGen

namespace Document

open Report (Tells tells_pure tells_ofText tells_ofOption bind_result_eq_ok_iff bind_notes_of_ok
  ofText_result_eq_ok_iff)

/-! ### Entries -/

section Entries

variable (source : Shared)

/-- The location of a parameter; one that says nothing is in the query. -/
def locationOf? (y : Spot) : Option Key :=
  match source.find? y "in" with
  | some place => place.value.toKey?
  | none => some (.str "query")

/-- Whether an entry, or the mapping that it refers to, has a name and a location. -/
def IsAt (x : Spot) (name : String) (location : Key) : Prop :=
  ∃ y, (resolved source x).result = .ok y ∧
    (source.valueOf y "name").truthy = true ∧ (source.valueOf y "name").shown = .ok name ∧
    ∃ place, locationOf? source y = some place ∧ place.same location = true

/-- Whether neither an entry nor the mapping that it refers to has a name. -/
def isNameless (x : Spot) : Bool :=
  match (resolved source x).result with
  | .ok y => !(source.valueOf y "name").truthy
  | .error _ => false

theorem isNameless_of_resolved {x y : Spot} (found : (resolved source x).result = .ok y) :
    isNameless source x = !(source.valueOf y "name").truthy := by
  rw [isNameless, found]

/-- Whether a warning says that an entry is skipped. -/
def IsSkipped (x : Spot) (w : Warning) : Prop :=
  ∃ y text, (resolved source x).result = .ok y ∧ (source.whole y).shown = .ok text ∧
    w = .namelessParameter text

/-- The warnings that entries are skipped. -/
def skipWarnings (ws : List Warning) : List Warning :=
  ws.filter fun
    | .namelessParameter _ => true
    | _ => false

/-- How entries are merged to parameters. -/
structure MergesEntries (entries : List Spot) (merged : List Parameter) : Prop where
  /-- No two parameters have one name and one location. -/
  distinct : merged.Pairwise fun p q => ¬ (p.name = q.name ∧ p.location.same q.location = true)
  /-- Names and locations of parameters are those of entries. -/
  pairs : ∀ name location, (∃ p ∈ merged, p.name = name ∧ p.location.same location = true) ↔
    ∃ x ∈ entries, IsAt source x name location
  /-- A parameter is what the last entry for it is read as. -/
  last : ∀ p ∈ merged, IsLast (fun x => (readParameter source x).result = .ok (some p))
    (IsAt source · p.name p.location) entries
  /-- Parameters stand in the order in which they are first mentioned. -/
  ordered : merged.Pairwise fun p q =>
    IsBefore (IsAt source · p.name p.location) (IsAt source · q.name q.location) entries

variable {source}

/-- What is read of an entry: nothing, with a warning, or a parameter. -/
theorem readParameter_ended {x : Spot} {r : Option Parameter}
    (ended : (readParameter source x).result = .ok r) :
    ∃ y, (resolved source x).result = .ok y ∧
      ((source.valueOf y "name").truthy = false ∧ r = none ∧
        (∃ text, (source.whole y).shown = .ok text ∧ (readParameter source x).notes =
          (resolved source x).notes ++ [.namelessParameter text]) ∨
      (source.valueOf y "name").truthy = true ∧
        (∃ p, r = some p ∧ (source.valueOf y "name").shown = .ok p.name ∧
          locationOf? source y = some p.location) ∧
        (readParameter source x).notes = (resolved source x).notes) := by
  obtain ⟨y, found, ended⟩ := bind_result_eq_ok_iff.1 ended
  refine ⟨y, found, ?_⟩
  rw [readParameter, bind_notes_of_ok found]
  cases named : (source.valueOf y "name").truthy with
  | false =>
    have absent : (source.valueOf y "name").present? = none := by simp [Value.present?, named]
    simp only [absent] at ended ⊢
    obtain ⟨text, shown, ended⟩ := bind_result_eq_ok_iff.1 ended
    refine .inl ⟨trivial, (Except.ok.inj ended).symm, text, ofText_result_eq_ok_iff.1 shown, ?_⟩
    rw [bind_notes_of_ok shown]
    rfl
  | true =>
    have present : (source.valueOf y "name").present? = some (source.valueOf y "name") := by
      simp [Value.present?, named]
    simp only [present] at ended ⊢
    obtain ⟨name, shown, ended⟩ := bind_result_eq_ok_iff.1 ended
    have named := ofText_result_eq_ok_iff.1 shown
    rw [bind_notes_of_ok shown, locationOf?]
    cases placed : source.find? y "in" with
    | none =>
      simp only [placed] at ended ⊢
      exact .inr ⟨trivial, ⟨_, (Except.ok.inj ended).symm, named, rfl⟩, List.append_nil _⟩
    | some place =>
      simp only [placed] at ended ⊢
      cases key : place.value.toKey? with
      | none =>
        rw [key] at ended
        cases ended
      | some location =>
        rw [key] at ended
        exact .inr ⟨trivial, ⟨_, (Except.ok.inj ended).symm, named, rfl⟩, List.append_nil _⟩

theorem not_isAt_of_nothing {x : Spot} (ended : (readParameter source x).result = .ok none)
    (name : String) (location : Key) : ¬ IsAt source x name location := by
  obtain ⟨y, found, ⟨nameless, -, -⟩ | ⟨-, ⟨p, same, -⟩, -⟩⟩ := readParameter_ended ended
  · rintro ⟨y', found', named, -⟩
    obtain rfl := Except.ok.inj (found.symm.trans found')
    rw [nameless] at named
    cases named
  · cases same

/-- An entry is at the name and the location of the parameter that it is read as. -/
theorem isAt_iff_of_parameter {x : Spot} {p : Parameter}
    (ended : (readParameter source x).result = .ok (some p)) {name : String} {location : Key} :
    IsAt source x name location ↔ p.name = name ∧ p.location.same location = true := by
  obtain ⟨y, found, ⟨-, none, -⟩ | ⟨named, ⟨p', same, shown, placed⟩, -⟩⟩ :=
    readParameter_ended ended
  · cases none
  · obtain rfl := Option.some.inj same
    constructor
    · rintro ⟨y', found', -, shown', place, placed', here⟩
      obtain rfl := Except.ok.inj (found.symm.trans found')
      obtain rfl := Option.some.inj (placed.symm.trans placed')
      exact ⟨Except.ok.inj (shown.symm.trans shown'), here⟩
    · rintro ⟨rfl, here⟩
      exact ⟨y, found, named, shown, p.location, placed, here⟩

theorem isAt_iff_sameParameter {x : Spot} {p : Parameter}
    (ended : (readParameter source x).result = .ok (some p)) (q : Parameter) :
    IsAt source x q.name q.location ↔ sameParameter p q = true := by
  rw [isAt_iff_of_parameter ended, sameParameter_iff]

/-- Whether entries are read one by one. -/
abbrev AreRead (source : Shared) (entries : List Spot) (reads : List (Option Parameter)) : Prop :=
  List.Forall₂ (fun x r => (readParameter source x).result = .ok r) entries reads

variable {entries : List Spot} {reads : List (Option Parameter)}

/-- An entry that is at a name and a location is read as a parameter. -/
theorem exists_parameter_of_isAt (each : AreRead source entries reads) {x : Spot}
    (mem : x ∈ entries) {name : String} {location : Key} (here : IsAt source x name location) :
    ∃ p, (readParameter source x).result = .ok (some p) := by
  obtain ⟨r, -, ended⟩ := exists_of_forall₂_left each mem
  cases r with
  | none => exact (not_isAt_of_nothing ended name location here).elim
  | some p => exact ⟨p, ended⟩

theorem mem_filterMap_of_read (each : AreRead source entries reads) {x : Spot} (mem : x ∈ entries)
    {p : Parameter} (ended : (readParameter source x).result = .ok (some p)) :
    p ∈ reads.filterMap id := by
  obtain ⟨r, member, read⟩ := exists_of_forall₂_left each mem
  obtain rfl := Except.ok.inj (read.symm.trans ended)
  exact List.mem_filterMap.2 ⟨some p, member, rfl⟩

/-- The entry of a parameter: the entries before it and after it are those of the parameters before
and after. -/
theorem exists_entry (each : AreRead source entries reads) {before after : List Parameter}
    {p : Parameter} (split : reads.filterMap id = before ++ p :: after) :
    ∃ front x back, entries = front ++ x :: back ∧
      (readParameter source x).result = .ok (some p) ∧
      (∀ y ∈ front, ∀ q, (readParameter source y).result = .ok (some q) → q ∈ before) ∧
      ∀ y ∈ back, ∀ q, (readParameter source y).result = .ok (some q) → q ∈ after := by
  induction each generalizing before with
  | nil => simp at split
  | @cons x r entries reads first others ih =>
    cases r with
    | none =>
      obtain ⟨front, y, back, rfl, read, left, right⟩ := ih split
      refine ⟨x :: front, y, back, rfl, read, List.forall_mem_cons.2 ⟨fun q read => ?_, left⟩,
        right⟩
      rw [first] at read
      cases read
    | some q =>
      change q :: reads.filterMap id = _ at split
      cases before with
      | nil =>
        obtain ⟨rfl, rest⟩ := List.cons.inj split
        refine ⟨[], x, entries, rfl, first, List.forall_mem_nil _, fun y mem q read => ?_⟩
        exact rest ▸ mem_filterMap_of_read others mem read
      | cons p' before =>
        obtain ⟨rfl, rest⟩ := List.cons.inj split
        obtain ⟨front, y, back, rfl, read, left, right⟩ := ih rest
        refine ⟨x :: front, y, back, rfl, read, List.forall_mem_cons.2 ⟨fun q' read => ?_,
          fun z mem q' read => List.mem_cons_of_mem _ (left z mem q' read)⟩, right⟩
        obtain rfl := Option.some.inj (Except.ok.inj (first.symm.trans read))
        exact List.mem_cons_self

/-- Entries are merged as the parameters are that they are read as. -/
theorem Merges.mergesEntries (each : AreRead source entries reads) {merged : List Parameter}
    (h : Merges (reads.filterMap id) merged) : MergesEntries source entries merged := by
  have last : ∀ p ∈ merged, IsLast (fun x => (readParameter source x).result = .ok (some p))
      (IsAt source · p.name p.location) entries := by
    intro p mem
    obtain ⟨before, p, after, split, rfl, none⟩ := h.last p mem
    obtain ⟨front, x, back, rfl, read, -, right⟩ := exists_entry each split
    refine ⟨front, x, back, rfl, read, fun y mem here => ?_⟩
    obtain ⟨q, ended⟩ := exists_parameter_of_isAt each
      (List.mem_append_right front (List.mem_cons_of_mem x mem)) here
    exact none q (right y mem q ended) ((isAt_iff_sameParameter ended p).1 here)
  refine ⟨?distinct, ?pairs, last, ?ordered⟩
  case distinct => simpa only [sameParameter_iff] using h.distinct
  case pairs =>
    intro name location
    constructor
    · rintro ⟨p, mem, pair⟩
      obtain ⟨x, listed, read⟩ := (last p mem).exists_mem
      exact ⟨x, listed, (isAt_iff_of_parameter read).2 pair⟩
    · rintro ⟨x, mem, here⟩
      obtain ⟨p, ended⟩ := exists_parameter_of_isAt each mem here
      obtain ⟨q, listed, same⟩ := h.covers p (mem_filterMap_of_read each mem ended)
      obtain ⟨rfl, near⟩ := (isAt_iff_of_parameter ended).1 here
      obtain ⟨name, close⟩ := sameParameter_iff.1 same
      exact ⟨q, listed, name, Key.same_trans close near⟩
  case ordered =>
    refine h.ordered.imp fun {p q} first => ?_
    obtain ⟨before, r, after, split, same, none⟩ := first
    obtain ⟨front, x, back, rfl, read, left, -⟩ := exists_entry each split
    refine ⟨front, x, back, rfl, (isAt_iff_sameParameter read p).2 same, fun y mem here => ?_⟩
    obtain ⟨q', ended⟩ := exists_parameter_of_isAt each (List.mem_append_left _ mem) here
    exact none q' (left y mem q' ended) ((isAt_iff_sameParameter ended q).1 here)

end Entries

/-! ### Warnings -/

/-- Whether a warning is none that an entry is skipped. -/
def IsNoSkip (w : Warning) : Prop := ∀ text, w ≠ .namelessParameter text

theorem skipWarnings_eq_nil {ws : List Warning} (h : ∀ w ∈ ws, IsNoSkip w) :
    skipWarnings ws = [] := by
  rw [skipWarnings, List.filter_eq_nil_iff]
  intro w mem
  cases w with
  | namelessParameter text => exact (h _ mem text rfl).elim
  | _ => simp

theorem skipWarnings_append (ws ws' : List Warning) :
    skipWarnings (ws ++ ws') = skipWarnings ws ++ skipWarnings ws' := List.filter_append ..

section Quiet

variable {α β : Type} {P : Warning → Prop} (source : Shared)

theorem tells_malformed : Tells P (Report.malformed : Reading α) :=
  Report.tells_of_notes_eq_nil rfl

theorem readEach_tells {f : α → Reading β} (h : ∀ a, Tells P (f a)) (as : List α) :
    Tells P (readEach f as) := by
  induction as with
  | nil => exact tells_pure _
  | cons a rest ih => exact (h a).bind fun b => ih.bind_pure _

theorem mapping_tells (x : Spot) : Tells P (mapping x) := by
  unfold mapping
  split
  · exact tells_pure _
  · exact tells_malformed

theorem mappingOrNone_tells (x : Spot) : Tells P (mappingOrNone x) := by
  unfold mappingOrNone
  split
  · exact mapping_tells x
  · exact tells_pure _

theorem listedOrNone_tells (x : Spot) : Tells P (listedOrNone source x) := by
  unfold listedOrNone
  split
  · exact tells_ofOption _
  · exact tells_pure _

theorem resolve_tells (ref : Value) : Tells IsNoSkip (resolve source ref) := by
  unfold resolve
  refine (tells_ofOption _).bind fun text => ?_
  dsimp only
  split
  · exact tells_pure _
  · refine Tells.bind_pure (fun w mem => ?_) _
    rw [List.mem_singleton.1 mem]
    exact nofun

theorem resolved_tells (x : Spot) : Tells IsNoSkip (resolved source x) := by
  refine (mapping_tells x).bind fun y => ?_
  split
  · exact resolve_tells source _
  · exact tells_pure _

theorem readContent_tells (x : Spot) : Tells P (readContent source x) := by
  refine (mappingOrNone_tells x).bind fun y => Tells.bind_pure (readEach_tells ?_ _) _
  exact fun _ => (tells_ofText _).bind fun _ => (mappingOrNone_tells _).bind_pure _

theorem readBody_tells (x : Spot) : Tells IsNoSkip (readBody source x) :=
  (resolved_tells source x).bind fun _ => (readContent_tells source _).bind_pure _

theorem readResponse_tells (status : String) (x : Spot) :
    Tells IsNoSkip (readResponse source status x) :=
  (resolved_tells source x).bind fun _ => (readContent_tells source _).bind_pure _

/-- Nothing after the parameters is skipped. -/
theorem readAfterParameters_tells (path method : String) (x : Spot)
    (parameters : List (Option Parameter)) :
    Tells IsNoSkip (readAfterParameters source path method x parameters) := by
  have response (e : Key × Spot) : Tells IsNoSkip (do
      let status ← shownKey e.1
      return (status, ← readResponse source status e.2)) :=
    (tells_ofText _).bind fun _ => (readResponse_tells source _ _).bind_pure _
  unfold readAfterParameters
  dsimp only
  split
  all_goals
    refine Tells.bind ?_ fun _ => (mappingOrNone_tells _).bind fun _ =>
      (readEach_tells response _).bind fun _ => (listedOrNone_tells source _).bind fun _ =>
      (readEach_tells (fun _ => tells_ofText _) _).bind fun _ => ?_
  · exact (readBody_tells source _).map some
  rotate_left
  · exact tells_pure _
  all_goals
    split
    · exact (tells_pure _).bind_pure _
    · exact ((tells_ofOption _).map some).bind_pure _

end Quiet

section Skipped

variable {source : Shared}

theorem forall₂_of_readEach {α β : Type} {f : α → Reading β} {as : List α} {bs : List β}
    (ended : (readEach f as).result = .ok bs) :
    List.Forall₂ (fun a b => (f a).result = .ok b) as bs ∧
      (readEach f as).notes = as.flatMap fun a => (f a).notes := by
  induction as generalizing bs with
  | nil =>
    cases ended
    exact ⟨.nil, rfl⟩
  | cons a rest ih =>
    obtain ⟨b, first, ended⟩ := bind_result_eq_ok_iff.1 ended
    obtain ⟨others, read, ended⟩ := bind_result_eq_ok_iff.1 ended
    cases ended
    obtain ⟨each, notes⟩ := ih read
    refine ⟨.cons first each, ?_⟩
    rw [readEach, bind_notes_of_ok first, bind_notes_of_ok read, notes, List.flatMap_cons]
    exact congrArg _ (List.append_nil _)

/-- An entry without a name is skipped with one warning, and no other entry is. -/
theorem skipWarnings_readParameter {x : Spot} {r : Option Parameter}
    (ended : (readParameter source x).result = .ok r) :
    List.Forall₂ (IsSkipped source) ([x].filter (isNameless source))
      (skipWarnings (readParameter source x).notes) := by
  obtain ⟨y, found, ⟨nameless, -, text, shown, notes⟩ | ⟨named, -, notes⟩⟩ :=
    readParameter_ended ended
  · have here : isNameless source x = true := by
      simp [isNameless_of_resolved source found, nameless]
    rw [notes, skipWarnings_append, skipWarnings_eq_nil (resolved_tells source x),
      List.filter_cons_of_pos here]
    exact .cons ⟨y, text, found, shown, rfl⟩ .nil
  · have other : ¬ isNameless source x = true := by
      simp [isNameless_of_resolved source found, named]
    rw [notes, skipWarnings_eq_nil (resolved_tells source x), List.filter_cons_of_neg other]
    exact .nil

theorem skipWarnings_readEach {entries : List Spot} {reads : List (Option Parameter)}
    (each : AreRead source entries reads) :
    List.Forall₂ (IsSkipped source) (entries.filter (isNameless source))
      (skipWarnings (entries.flatMap fun x => (readParameter source x).notes)) := by
  induction each with
  | nil => exact .nil
  | @cons x r entries reads first _ ih =>
    rw [List.flatMap_cons, skipWarnings_append, ← List.singleton_append, List.filter_append]
    exact List.rel_append (skipWarnings_readParameter first) ih

end Skipped

/-- **Parameters of an operation are merged from entries.** The entries are those of the path and
then those of the operation. There is one parameter for each pair of a name and a location that an
entry has, its reference followed; it is what the last of these entries is read as, and the order is
that of first mention. Each entry without a name gives one warning that it is skipped. -/
theorem readOperation_merges {source : Shared} {path method : String} {shared x : Spot}
    {o : Operation} (ended : (readOperation source path method shared x).result = .ok o) :
    ∃ sharedItems ownItems, (listedOrNone source shared).result = .ok sharedItems ∧
      (listedOrNone source (source.get x "parameters")).result = .ok ownItems ∧
      MergesEntries source (sharedItems ++ ownItems) o.parameters ∧
      List.Forall₂ (IsSkipped source) ((sharedItems ++ ownItems).filter (isNameless source))
        (skipWarnings (readOperation source path method shared x).notes) := by
  rw [readOperation_eq] at ended ⊢
  obtain ⟨sharedItems, listed, ended⟩ := bind_result_eq_ok_iff.1 ended
  obtain ⟨ownItems, listed', ended⟩ := bind_result_eq_ok_iff.1 ended
  obtain ⟨parameters, reading, ended⟩ := bind_result_eq_ok_iff.1 ended
  obtain ⟨each, notes⟩ := forall₂_of_readEach reading
  refine ⟨sharedItems, ownItems, listed, listed', ?_, ?_⟩
  · rw [(readAfterParameters_yields source path method x parameters o ended).2]
    exact (merges_mergeParameters _).mergesEntries each
  · rw [bind_notes_of_ok listed, bind_notes_of_ok listed', bind_notes_of_ok reading, notes]
    simp only [skipWarnings_append, skipWarnings_eq_nil (listedOrNone_tells source _),
      skipWarnings_eq_nil (readAfterParameters_tells source path method x parameters),
      List.nil_append, List.append_nil]
    exact skipWarnings_readEach each

/-- Parameters of a path: a reference, a parameter of its own and one without a name. -/
def sharedParameters : Spot where
  value := .list [.map [(.str "$ref", .str "#/components/parameters/Limit")],
    .map [(.str "name", .str "id"), (.str "in", .str "path")], .map [(.str "in", .str "query")]]

/-- An operation with the parameter once more that its path refers to, and one of that name in
another location. -/
def limited : Spot where
  value := .map [(.str "parameters", .list [
    .map [(.str "name", .str "limit"), (.str "required", .bool true)],
    .map [(.str "name", .str "limit"), (.str "in", .str "header")]])]

theorem readOperation_merges_of_limited :
    ∃ o sharedItems ownItems,
      (readOperation limitSource "/pets" "GET" sharedParameters limited).result = .ok o ∧
      (o.parameters.map fun p => (p.name, p.location, p.isRequired)) =
        [("limit", .str "query", true), ("id", .str "path", true),
          ("limit", .str "header", false)] ∧
      MergesEntries limitSource (sharedItems ++ ownItems) o.parameters ∧
      List.Forall₂ (IsSkipped limitSource)
        ((sharedItems ++ ownItems).filter (isNameless limitSource))
        (skipWarnings (readOperation limitSource "/pets" "GET" sharedParameters limited).notes) := by
  have read : (readOperation limitSource "/pets" "GET" sharedParameters limited).result.map
      (fun o => o.parameters.map fun p => (p.name, p.location, p.isRequired)) =
      .ok [("limit", .str "query", true), ("id", .str "path", true),
        ("limit", .str "header", false)] := by decide +kernel
  obtain ⟨o, ended, parameters⟩ := map_eq_ok_iff.1 read
  obtain ⟨sharedItems, ownItems, -, -, merged, skipped⟩ := readOperation_merges ended
  exact ⟨o, sharedItems, ownItems, ended, parameters, merged, skipped⟩

/-- Only the entry without a name is skipped. -/
example : skipWarnings (readOperation limitSource "/pets" "GET" sharedParameters limited).notes =
    [.namelessParameter "\x7b'in': 'query'\x7d"] := by decide +kernel

end Document

end ClientGen
