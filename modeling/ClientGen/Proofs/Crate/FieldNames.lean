import ClientGen.Proofs.Crate.Held
import ClientGen.Proofs.Name.FileName

/-!
# The names of fields

A field is named by the words of its property: what is done to a name before it is cut into words
leaves the words as they are (`words_identifierText`), the name tells its words again, and the mark
of a raw identifier takes nothing away (`escapeKeyword_inj`). So two properties have one field name
exactly if they have the same words (`fieldName_eq_iff`).

* **A struct has a field for each of its properties, in their order** (`structFields_names`), and
  its field names are distinct exactly if no two properties have the same words.
* Nothing keeps apart those that have (`fields_share_name`).
-/

namespace ClientGen.Crate

open Name (Alike words)
open Report (bind_result_eq_ok_iff)
open Schema (Components)

/-! ### Identifiers and words -/

/-- The character that a code point becomes in an identifier. -/
def identifierChar (n : Nat) : Char :=
  let c := Char.ofNat n
  if c.isAlphanum || c = '_' then c else '_'

theorem identifierText_eq (name : String) : identifierText name =
    let cs := (Text.codes name.toList).map identifierChar
    String.ofList (if cs.head?.any Char.isDigit then '_' :: cs else cs) := rfl

theorem orderCode_of_isAlphanum {c : Char} (letter : c.isAlphanum = true) :
    Text.orderCode c = c.toNat :=
  Name.of_isAlphanum (P := fun c => Text.orderCode c = c.toNat) (by decide) letter

theorem isReserved_of_isAlphanum {c : Char} (letter : c.isAlphanum = true) :
    Text.isReserved c = false :=
  Name.of_isAlphanum (P := fun c => Text.isReserved c = false) (by decide) letter

theorem ofNat_of_half {n : Nat} (half : Text.isHalf n = true) : Char.ofNat n = Char.ofNat 0 := by
  have invalid : ¬n.isValidChar := by
    simp [Text.isHalf] at half
    unfold Nat.isValidChar
    omega
  rw [Char.ofNat, dif_neg invalid]
  rfl

theorem isAlphanum_ofNat_orderCode {c : Char} (mark : c.isAlphanum = false) :
    (Char.ofNat (Text.orderCode c)).isAlphanum = false := by
  unfold Text.orderCode
  split
  · next half =>
    rw [ofNat_of_half half]
    decide
  · rwa [Char.ofNat_toNat]

theorem identifierChar_of_letter {n : Nat} (letter : (Char.ofNat n).isAlphanum = true) :
    identifierChar n = Char.ofNat n := by
  simp [identifierChar, letter]

theorem identifierChar_of_mark {n : Nat} (mark : (Char.ofNat n).isAlphanum = false) :
    identifierChar n = '_' := by
  by_cases underscore : Char.ofNat n = '_'
  · simp [identifierChar, underscore]
  · simp [identifierChar, mark, underscore]

/-- A character, and what it becomes in an identifier, in front of what stands alike. -/
theorem alike_cons {c : Char} {cs ds : List Char} (behind : Alike cs ds) :
    Alike (c :: cs) (identifierChar (Text.orderCode c) :: ds) := by
  by_cases letter : c.isAlphanum = true
  · have same : Char.ofNat (Text.orderCode c) = c := by
      rw [orderCode_of_isAlphanum letter, Char.ofNat_toNat]
    have kept : (Char.ofNat (Text.orderCode c)).isAlphanum = true := by
      rw [same]
      exact letter
    rw [identifierChar_of_letter kept, same]
    exact .letter letter behind
  · have mark : c.isAlphanum = false := by simpa using letter
    rw [identifierChar_of_mark (isAlphanum_ofNat_orderCode mark)]
    exact .marks (Name.areMarks_singleton mark) (Name.areMarks_singleton (by rfl)) behind

theorem alike_codes (cs : List Char) : Alike cs ((Text.codes cs).map identifierChar) := by
  fun_induction Text.codes cs with
  | case1 => exact .nil
  | case2 c d rest marked ih =>
    -- A character behind the mark is kept for one code point, which is no letter.
    rw [Bool.and_eq_true, beq_iff_eq] at marked
    obtain ⟨rfl, reserved⟩ := marked
    have noLetter : d.isAlphanum = false := by
      rw [Bool.eq_false_iff]
      intro letter
      rw [isReserved_of_isAlphanum letter] at reserved
      cases reserved
    rw [List.map_cons, identifierChar_of_mark (by rwa [Char.ofNat_toNat])]
    exact .marks (Name.areMarks_cons (by rfl) (Name.areMarks_singleton noLetter))
      (Name.areMarks_singleton (by rfl)) ih
  | case3 c d rest _ ih => exact alike_cons ih
  | case4 c => exact alike_cons .nil

/-- Made into an identifier, a name has the same words. -/
theorem words_identifierText (name : String) :
    words (identifierText name).toList = words name.toList := by
  have same := Name.words_eq_of_alike (alike_codes name.toList)
  rw [identifierText_eq, same]
  dsimp only
  rw [String.toList_ofList]
  split
  · exact Name.words_underscore _
  · rfl

theorem snake_identifierText (name : String) : Name.snake (identifierText name) = Name.snake name :=
  Name.apply_congr .snake (words_identifierText name)

theorem pascal_identifierText (name : String) :
    Name.pascal (identifierText name) = Name.pascal name :=
  Name.apply_congr .pascal (words_identifierText name)

/-! ### Raw identifiers -/

theorem escapeKeyword_of_mem {name : String} (keyword : name ∈ keywords) :
    escapeKeyword name = "r#" ++ name := if_pos (by simpa using keyword)

theorem escapeKeyword_of_not_mem {name : String} (free : name ∉ keywords) :
    escapeKeyword name = name := if_neg (by simpa using free)

theorem hash_mem_raw (name : String) : '#' ∈ ("r#" ++ name).toList := by
  rw [String.toList_append]
  exact List.mem_append_left _ (by decide)

/-- The mark of a raw identifier leaves names apart that have no such mark. -/
theorem escapeKeyword_inj {s t : String} (plain : '#' ∉ s.toList) (plain' : '#' ∉ t.toList)
    (same : escapeKeyword s = escapeKeyword t) : s = t := by
  by_cases left : s ∈ keywords
  · rw [escapeKeyword_of_mem left] at same
    by_cases right : t ∈ keywords
    · rw [escapeKeyword_of_mem right] at same
      exact (String.append_right_inj "r#").1 same
    · rw [escapeKeyword_of_not_mem right] at same
      exact absurd (same ▸ hash_mem_raw s) plain'
  · rw [escapeKeyword_of_not_mem left] at same
    by_cases right : t ∈ keywords
    · rw [escapeKeyword_of_mem right] at same
      exact absurd (same ▸ hash_mem_raw t) plain
    · rwa [escapeKeyword_of_not_mem right] at same

theorem hash_not_mem_snake (s : String) : '#' ∉ (Name.snake s).toList := by
  intro mem
  have spelled := Name.isNameChar_apply .snake s _ mem
  revert spelled
  decide

/-! ### Names of fields -/

/-- The text that a field is named after: its property, or a stand-in for one without any word. -/
def namesake (name : String) : String := if (words name.toList).isEmpty then "field" else name

/-- The words of a field's name. -/
def fieldWords (name : String) : List (List Char) := words (namesake name).toList

theorem isEmpty_snake_iff {s : String} :
    (Name.snake s).isEmpty = true ↔ (words s.toList).isEmpty = true := by
  have mark : ('_' : Char).isAlphanum = false := by decide
  rw [List.isEmpty_iff, String.isEmpty_iff]
  constructor
  · intro none
    exact Name.joinWords_inj mark (t := "") none
  · intro none
    rw [Name.snake, none]
    rfl

theorem fieldName_eq (name : String) : fieldName name = escapeKeyword (Name.snake (namesake name)) := by
  unfold fieldName namesake
  rw [snake_identifierText]
  dsimp only
  by_cases none : (words name.toList).isEmpty = true
  · have empty : Name.snake name = "" := by simpa using isEmpty_snake_iff.2 none
    rw [if_pos none, empty]
    decide
  · have filled : ¬(escapeKeyword (Name.snake name)).isEmpty = true := by
      unfold escapeKeyword
      split
      · intro empty
        have mem := hash_mem_raw (Name.snake name)
        rw [String.isEmpty_iff.1 empty] at mem
        simp at mem
      · rwa [isEmpty_snake_iff]
    rw [if_neg none, if_neg filled]

/-- **Two properties have one field name exactly if they have the same words.** -/
theorem fieldName_eq_iff {s t : String} : fieldName s = fieldName t ↔ fieldWords s = fieldWords t := by
  rw [fieldName_eq, fieldName_eq]
  constructor
  · intro same
    have spelled := escapeKeyword_inj (hash_not_mem_snake _) (hash_not_mem_snake _) same
    exact Name.joinWords_inj (by decide) spelled
  · intro same
    exact congrArg escapeKeyword (Name.apply_congr .snake same)

/-! ### Structs -/

section Structs

variable {components : Components} {name : String} {schema : Value} {m : Model}

theorem field_of_outline {properties : Entries}
    (outlined : outline? schema = some (.struct properties)) :
    schema.field "properties" = .map properties := by
  unfold outline? at outlined
  split at outlined
  · next es =>
    split at outlined
    · next read _ =>
      have built := Option.some.inj outlined
      unfold outlineOf structProperties? at built
      show Entries.get "properties" es = _
      split at built
      · cases built
      · split at built
        · next found =>
          split at found
          · next first rest listed =>
            split at found
            · cases found
              cases built
              exact listed
            · cases found
          · cases found
        · cases built
    · cases outlined
  · cases outlined

theorem forall₂_fieldNames {own : String} {required : List Key} {properties : Entries}
    {fields : List Field}
    (typed : (fieldsOf components own required properties).result = .ok fields) :
    List.Forall₂ (fun p f => p.1 = .str f.wireName ∧ f.name = fieldName f.wireName)
      properties fields := by
  induction properties generalizing fields with
  | nil =>
    cases typed
    exact .nil
  | cons p rest ih =>
    obtain ⟨t, -, typed⟩ := bind_result_eq_ok_iff.1 typed
    obtain ⟨wireName, shown, typed⟩ := bind_result_eq_ok_iff.1 typed
    obtain ⟨others, after, typed⟩ := bind_result_eq_ok_iff.1 typed
    cases typed
    apply List.Forall₂.cons _ (ih after)
    dsimp only
    rw [and_iff_left rfl]
    cases key : p.1 with
    | str s =>
      rw [key] at shown
      cases shown
      rfl
    | _ =>
      rw [key] at shown
      cases shown

end Structs

/-- **The fields of a struct.** There is one for each property, in their order, named after it. The
names are distinct exactly if the properties have distinct words. -/
theorem structFields_names {components : Components} {name : String} {schema : Value} {m : Model}
    {fields : List Field} (built : (modelOf components name schema).result = .ok m)
    (shape : m.shape = .struct fields) : ∃ properties,
      schema.field "properties" = .map properties ∧
      List.Forall₂ (fun p f => p.1 = .str f.wireName ∧ f.name = fieldName f.wireName)
        properties fields ∧
      ((fields.map (·.name)).Nodup ↔ (fields.map fun f => fieldWords f.wireName).Nodup) := by
  cases typedBy_modelOf built with
  | enum _ shape' => cases shape.symm.trans shape'
  | typeAlias _ _ shape' => cases shape.symm.trans shape'
  | @struct properties required fields' outlined typed shape' =>
    cases shape.symm.trans shape'
    have each := forall₂_fieldNames typed
    refine ⟨properties, field_of_outline outlined, each, ?_⟩
    have named : fields.map (·.name) = fields.map fun f => fieldName f.wireName := by
      apply List.map_congr_left
      intro f mem
      obtain ⟨p, -, -, same⟩ := exists_of_forall₂_right each mem
      exact same
    rw [named]
    exact nodup_map_congr fun f _ g _ => fieldName_eq_iff

/-- The names of the fields of a component, if its model is a struct. -/
def fieldNamesOf (components : Components) (name : String) (schema : Value) :
    Except Failure (Option (List String)) :=
  (modelOf components name schema).result.map fun m =>
    match m.shape with
    | .struct fields => some (fields.map (·.name))
    | _ => none

theorem exists_of_fieldNamesOf {components : Components} {name : String} {schema : Value}
    {names : List String} (named : fieldNamesOf components name schema = .ok (some names)) :
    ∃ m fields, (modelOf components name schema).result = .ok m ∧ m.shape = .struct fields ∧
      fields.map (·.name) = names := by
  obtain ⟨m, built, shown⟩ := map_eq_ok_iff.1 named
  split at shown
  · next fields shape => exact ⟨m, fields, built, shape, Option.some.inj shown⟩
  · cases shown

/-- An object with properties of the given names. -/
def objectNamed (names : List String) : Value :=
  .map [(.str "type", .str "object"),
    (.str "properties", .map (names.map fun name => (.str name, .map [])))]

theorem structFields_names_of_pet :
    ∃ m fields, (modelOf [] "Pet" (objectNamed ["petName", "type", "---"])).result = .ok m ∧
      m.shape = .struct fields ∧ fields.map (·.name) = ["pet_name", "r#type", "field"] ∧
      (∃ properties, (objectNamed ["petName", "type", "---"]).field "properties" =
          .map properties ∧
        List.Forall₂ (fun p f => p.1 = .str f.wireName ∧ f.name = fieldName f.wireName)
          properties fields ∧
        ((fields.map (·.name)).Nodup ↔ (fields.map fun f => fieldWords f.wireName).Nodup)) := by
  have named : fieldNamesOf [] "Pet" (objectNamed ["petName", "type", "---"]) =
      .ok (some ["pet_name", "r#type", "field"]) := by decide
  obtain ⟨m, fields, built, shape, names⟩ := exists_of_fieldNamesOf named
  exact ⟨m, fields, built, shape, names, structFields_names built shape⟩

/-- A struct with two fields of one name. -/
theorem fields_share_name :
    ∃ m fields, (modelOf [] "Pet" (objectNamed ["petName", "pet_name"])).result = .ok m ∧
      m.shape = .struct fields ∧ ¬(fields.map (·.name)).Nodup := by
  have named : fieldNamesOf [] "Pet" (objectNamed ["petName", "pet_name"]) =
      .ok (some ["pet_name", "pet_name"]) := by decide
  obtain ⟨m, fields, built, shape, names⟩ := exists_of_fieldNamesOf named
  refine ⟨m, fields, built, shape, ?_⟩
  rw [names]
  decide

end ClientGen.Crate
