import ClientGen.Name.Identifier
import ClientGen.Proofs.Lists.Pointwise
import ClientGen.Schema.Basic

/-!
# Values of JSON

Documents in YAML hold values that JSON lacks, and some of them have no text. A value of JSON has
one wherever a schema needs it: shown on its own, as the name of a member (`memberText`), written as
JSON (`write`), and as a literal type or a member's value (`literalText`, `enumValueText`).
-/

namespace ClientGen

theorem exists_mapM {ε α β : Type} {f : α → Except ε β} {as : List α}
    (each : ∀ a ∈ as, ∃ b, f a = .ok b) : ∃ bs, as.mapM f = .ok bs := by
  induction as with
  | nil => exact ⟨[], rfl⟩
  | cons a rest ih =>
    obtain ⟨⟨b, first⟩, others⟩ := List.forall_mem_cons.1 each
    obtain ⟨bs, rest⟩ := ih others
    refine ⟨b :: bs, ?_⟩
    rw [List.mapM_cons, first, rest]
    rfl

namespace Value

/-- Whether a value is one of JSON, with no integer that has more digits than are read. -/
inductive IsJson : Value → Prop
  | null : IsJson .null
  | bool (b : Bool) : IsJson (.bool b)
  | int {n : Int} (short : isShort n = true) : IsJson (.int n)
  | float (d : Decimal) : IsJson (.float d)
  | str (s : String) : IsJson (.str s)
  | list {items : List Value} (items_json : ∀ v ∈ items, IsJson v) : IsJson (.list items)
  | map {es : Entries} (names : ∀ e ∈ es, ∃ s, e.1 = .str s)
      (values_json : ∀ e ∈ es, IsJson e.2) : IsJson (.map es)

namespace IsJson

variable {v : Value} {es : Entries}

attribute [simp] IsJson.null IsJson.bool IsJson.float IsJson.str

/-! ### Parts -/

@[simp] theorem list_iff {items : List Value} : IsJson (.list items) ↔ ∀ v ∈ items, IsJson v := by
  constructor
  · rintro (_ | _ | _ | _ | _ | items_json | _)
    exact items_json
  · exact .list

@[simp] theorem map_iff {es : Entries} :
    IsJson (.map es) ↔ ∀ e ∈ es, (∃ s, e.1 = .str s) ∧ IsJson e.2 := by
  constructor
  · rintro (_ | _ | _ | _ | _ | _ | ⟨names, values_json⟩) e mem
    exact ⟨names e mem, values_json e mem⟩
  · exact fun each => .map (fun e mem => (each e mem).1) fun e mem => (each e mem).2

theorem get (json : IsJson (.map es)) (name : String) : IsJson (es.get name) := by
  have values_json : ∀ e ∈ es, IsJson e.2 := fun e mem => (map_iff.1 json e mem).2
  clear json
  rw [Entries.get]
  induction es with
  | nil => exact .null
  | cons e rest ih =>
    obtain ⟨here, others⟩ := List.forall_mem_cons.1 values_json
    rw [Entries.find?]
    split
    · exact here
    · exact ih others

/-! ### Texts -/

theorem allWritable_iff {items : List Value} :
    allWritable items = true ↔ ∀ v ∈ items, v.isWritable = true := by
  induction items with
  | nil => simp [allWritable]
  | cons v rest ih => simp [allWritable, ih]

theorem allWritableEntries_iff {es : Entries} : allWritableEntries es = true ↔
    ∀ e ∈ es, isShortKey e.1 = true ∧ e.2.isWritable = true := by
  induction es with
  | nil => simp [allWritableEntries]
  | cons e rest ih => simp [allWritableEntries, ih, and_assoc]

theorem isWritable (json : IsJson v) : v.isWritable = true := by
  induction json with
  | int short => exact short
  | list _ ih =>
    rw [Value.isWritable]
    exact allWritable_iff.2 ih
  | map names _ ih =>
    rw [Value.isWritable]
    refine allWritableEntries_iff.2 fun e mem => ⟨?_, ih e mem⟩
    obtain ⟨s, key⟩ := names e mem
    rw [key]
    rfl
  | _ => rfl

theorem shown (json : IsJson v) : ∃ text, v.shown = .ok text :=
  ⟨v.display, if_pos json.isWritable⟩

theorem memberText (json : IsJson v) : ∃ text, Name.memberText v = .ok text := by
  cases v with
  | bool b => exact ⟨_, rfl⟩
  | _ => exact json.shown

theorem writeItems_eq (sorted : Bool) (items : List Value) :
    Json.writeItems sorted items = items.map (Json.write sorted) := by
  induction items with
  | nil => rfl
  | cons v rest ih => rw [Json.writeItems, ih, List.map_cons]

theorem writeMembers_eq (sorted : Bool) (es : Entries) :
    Json.writeMembers sorted es = es.map fun e => (e.1, Json.write sorted e.2) := by
  induction es with
  | nil => rfl
  | cons e rest ih => rw [Json.writeMembers, ih, List.map_cons]

/-- Members can be put in order if all of their keys are texts. -/
theorem exists_sortByKey {α : Type} {members : List (Key × α)}
    (names : ∀ m ∈ members, ∃ s, m.1 = .str s) :
    ∃ ordered, Json.sortByKey members = .ok ordered ∧ ∀ m ∈ ordered, m ∈ members := by
  have texts : ∀ k ∈ members.map (·.1), ∃ s, k = .str s := by
    intro k mem
    obtain ⟨m, member, rfl⟩ := List.mem_map.1 mem
    exact names m member
  have text : (members.map (·.1)).all Json.isTextKey = true := by
    refine List.all_eq_true.2 fun k mem => ?_
    obtain ⟨s, rfl⟩ := texts k mem
    rfl
  have defined : (members.map (·.1)).any Json.isUndefinedKey = false := by
    refine List.any_eq_false.2 fun k mem => ?_
    obtain ⟨s, rfl⟩ := texts k mem
    exact Bool.false_ne_true
  simp only [Json.sortByKey, text, defined]
  split
  · exact ⟨members, rfl, fun m mem => mem⟩
  · exact ⟨_, rfl, fun m mem => List.mem_mergeSort.1 mem⟩

theorem exists_objectText {sorted : Bool} {members : List (Key × Except Textless String)}
    (names : ∀ m ∈ members, ∃ s, m.1 = .str s) (written : ∀ m ∈ members, ∃ text, m.2 = .ok text) :
    ∃ text, Json.objectText sorted members = .ok text := by
  have each {ordered : List (Key × Except Textless String)} (mem : ∀ m ∈ ordered, m ∈ members) :
      ∃ texts, Json.memberTexts ordered = .ok texts := by
    refine exists_mapM fun m member => ?_
    obtain ⟨s, name⟩ := names m (mem m member)
    obtain ⟨text, value⟩ := written m (mem m member)
    rw [name, value]
    exact ⟨_, rfl⟩
  cases sorted with
  | false =>
    obtain ⟨texts, written⟩ := each fun m mem => mem
    refine ⟨_, bind_eq_ok_iff.2 ⟨members, rfl, bind_eq_ok_iff.2 ⟨texts, written, rfl⟩⟩⟩
  | true =>
    obtain ⟨ordered, inOrder, mem⟩ := exists_sortByKey names
    obtain ⟨texts, written⟩ := each mem
    refine ⟨_, bind_eq_ok_iff.2 ⟨ordered, inOrder, bind_eq_ok_iff.2 ⟨texts, written, rfl⟩⟩⟩

theorem write (json : IsJson v) (sorted : Bool) : ∃ text, Json.write sorted v = .ok text := by
  induction json with
  | int short =>
    rw [Json.write, Json.integerText, if_pos short]
    exact ⟨_, rfl⟩
  | @list items _ ih =>
    obtain ⟨texts, written⟩ : ∃ texts, (Json.writeItems sorted items).mapM id = .ok texts := by
      refine exists_mapM fun text mem => ?_
      rw [writeItems_eq] at mem
      obtain ⟨v, item, rfl⟩ := List.mem_map.1 mem
      exact ih v item
    rw [Json.write, Json.listText, written]
    exact ⟨_, rfl⟩
  | @map es names _ ih =>
    have members : ∀ m ∈ Json.writeMembers sorted es, ∃ e ∈ es,
        (e.1, Json.write sorted e.2) = m := by
      rw [writeMembers_eq]
      exact fun m mem => List.mem_map.1 mem
    rw [Json.write]
    apply exists_objectText
    · intro m mem
      obtain ⟨e, member, rfl⟩ := members m mem
      exact names e member
    · intro m mem
      obtain ⟨e, member, rfl⟩ := members m mem
      exact ih e member
  | _ => exact ⟨_, rfl⟩

theorem literalText (json : IsJson v) : ∃ text, Schema.literalText v = .ok text := by
  obtain ⟨text, written⟩ := json.write true
  cases json with
  | null => exact ⟨_, rfl⟩
  | list _ =>
    rw [Schema.literalText, written]
    exact ⟨_, rfl⟩
  | map _ _ =>
    rw [Schema.literalText, written]
    exact ⟨_, rfl⟩
  | _ => exact ⟨text, written⟩

theorem enumValueText (json : IsJson v) : ∃ text, Schema.enumValueText v = .ok text := by
  obtain ⟨text, written⟩ := json.literalText
  cases json with
  | bool b => exact ⟨_, rfl⟩
  | _ => exact ⟨text, written⟩

end IsJson

end Value

end ClientGen
