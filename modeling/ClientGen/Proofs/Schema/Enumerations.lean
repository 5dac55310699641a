import ClientGen.Proofs.Name.Plain
import ClientGen.Proofs.Name.PropertyKey
import ClientGen.Proofs.Schema.Declarable
import ClientGen.Proofs.Schema.Interfaces

/-!
# Enumerations

A schema that lists values is declared as an enumeration. It has a member for each value but `null`,
in order (`areVariantsOf_variantsAfter`), and it is there exactly if each of these values can be
written (`declared_enumeration`).
-/

namespace ClientGen.Schema

open Name (IsLiteralOf IsPlainIdentifier)
open Report (Returns bind_pure_result_eq_ok_iff bind_result_eq_ok_iff ofText_result_eq_ok_iff)
open Value (IsJson)

/-! ### Members -/

/-- Whether a value has a text to name a member by, and one to initialize it with. -/
def IsWritable (v : Value) : Prop :=
  (∃ s, Name.memberText v = .ok s) ∧ ∃ s, enumValueText v = .ok s

/-- Whether a member stands for a value. The initializer of a string is a literal that is read as the
string. -/
structure IsVariantOf (v : Value) (variant : Variant) : Prop where
  named : ∃ text taken, Name.memberText v = .ok text ∧
    variant.name = Name.distinctFrom taken (Name.memberName text)
  plain : IsPlainIdentifier variant.name
  written : ∃ text, enumValueText v = .ok text ∧ variant.value = some text
  literal : ∀ s, v = .str s → ∃ text, variant.value = some text ∧ IsLiteralOf text s

theorem isVariantOf {v : Value} {base text : String} (named : Name.memberText v = .ok base)
    (written : enumValueText v = .ok text) (taken : List String) :
    IsVariantOf v ⟨Name.distinctFrom taken (Name.memberName base), some text⟩ where
  named := ⟨base, taken, named, rfl⟩
  plain := (Name.isPlainIdentifier_memberName base).distinctFrom taken
  written := ⟨text, written, rfl⟩
  literal := by
    rintro s rfl
    cases written
    exact ⟨_, rfl, Name.isLiteralOf_quote s⟩

/-- Whether members stand for values, in their order and under names of their own. -/
structure AreVariantsOf (values : List Value) (variants : List Variant) : Prop where
  each : List.Forall₂ IsVariantOf values variants
  distinct : (variants.map (·.name)).Nodup

/-- Members stand for values, and get their names one after the other. -/
theorem variantsAfter_ended {used : List String} {values : List Value} {variants : List Variant}
    (ended : (variantsAfter used values).result = .ok variants) :
    List.Forall₂ IsVariantOf values variants ∧
      ∃ bases, variants.map (·.name) = Name.distinctNames used bases := by
  induction values generalizing used variants with
  | nil =>
    cases ended
    exact ⟨.nil, [], rfl⟩
  | cons value rest ih =>
    obtain ⟨base, named, ended⟩ := bind_result_eq_ok_iff.1 ended
    obtain ⟨text, written, ended⟩ := bind_result_eq_ok_iff.1 ended
    obtain ⟨others, behind, same⟩ := bind_result_eq_ok_iff.1 ended
    cases same
    obtain ⟨each, bases, names⟩ := ih behind
    refine ⟨.cons ?_ each, Name.memberName base :: bases, ?_⟩
    · exact isVariantOf (ofText_result_eq_ok_iff.1 named) (ofText_result_eq_ok_iff.1 written) used
    · rw [List.map_cons, names, Name.distinctNames]

theorem areVariantsOf_variantsAfter {values : List Value} {variants : List Variant}
    (ended : (variantsAfter [] values).result = .ok variants) : AreVariantsOf values variants := by
  obtain ⟨each, bases, names⟩ := variantsAfter_ended ended
  exact ⟨each, names ▸ (Name.nodup_distinctNames [] bases).1⟩

/-- There are members for values exactly if each value can be written. -/
theorem returns_variantsAfter_iff {used : List String} {values : List Value} :
    Returns (variantsAfter used values) ↔ ∀ v ∈ values, IsWritable v := by
  induction values generalizing used with
  | nil => exact iff_of_true (Report.returns_pure _) (List.forall_mem_nil _)
  | cons value rest ih =>
    rw [variantsAfter, List.forall_mem_cons, Report.returns_bind_iff]
    have others (base : String) : Returns (do
        let text ← Report.ofText (enumValueText value)
        let others ← variantsAfter (Name.distinctFrom used (Name.memberName base) :: used) rest
        return (⟨Name.distinctFrom used (Name.memberName base), some text⟩ :: others :
          List Variant) : Lowering (List Variant)) ↔
        (∃ text, enumValueText value = .ok text) ∧ ∀ v ∈ rest, IsWritable v := by
      refine (Report.returns_bind_iff_and fun text => Report.returns_bind_pure_iff.trans ih).trans ?_
      simp only [Returns, ofText_result_eq_ok_iff]
    constructor
    · rintro ⟨base, named, rest⟩
      obtain ⟨written, rest⟩ := (others base).1 rest
      exact ⟨⟨⟨base, ofText_result_eq_ok_iff.1 named⟩, written⟩, rest⟩
    · rintro ⟨⟨⟨base, named⟩, written⟩, rest⟩
      exact ⟨base, ofText_result_eq_ok_iff.2 named, (others base).2 ⟨written, rest⟩⟩

/-! ### Declarations -/

theorem ownWith_of_enumValues? {typed : Value → Lowering TypeExpr} {typeName : String}
    {es : Entries} {values : List Value} (listed : enumValues? es = some values) :
    ownWith typed typeName es = do
      let variants ← variantsAfter [] values
      return .enumeration { name := typeName, variants, documentation := documentation es } := by
  rw [ownWith, listed]

/-- **A schema that lists values is declared as an enumeration of them**, in every context. It has
one exactly if each value but `null` can be written, as all values of JSON can. -/
theorem declared_enumeration {scope : Scope} {name : String} {es : Entries} {c : Context}
    {values : List Value} (own : Entries.find? "$ref" es = none)
    (listed : es.get "enum" = .list values) (some : withoutNull values ≠ []) :
    (Returns (Mapper.declare scope name (.map es) c).1 ↔
      NamesVariants es ∧ ∀ v ∈ withoutNull values, IsWritable v) ∧
    (∀ d, (Mapper.declare scope name (.map es) c).1.result = .ok d →
      ∃ e, d = .enumeration e ∧ AreVariantsOf (withoutNull values) e.variants) ∧
    (IsJson (.map es) → Returns (Mapper.declare scope name (.map es) c).1) := by
  have found : enumValues? es = .some (withoutNull values) := by
    rw [enumValues?, listed]
    simpa using some
  have declared (d : Declaration) : (Mapper.declare scope name (.map es) c).1.result = .ok d ↔
      NamesVariants es ∧ ∃ variants, (variantsAfter [] (withoutNull values)).result = .ok variants ∧
        d = .enumeration { name := Name.typeName name, variants, documentation := documentation es } := by
    rw [Mapper.declare_own_iff own, ownWith_of_enumValues? found, bind_pure_result_eq_ok_iff]
  have returns : Returns (Mapper.declare scope name (.map es) c).1 ↔
      NamesVariants es ∧ ∀ v ∈ withoutNull values, IsWritable v := by
    rw [← returns_variantsAfter_iff]
    constructor
    · rintro ⟨d, ended⟩
      obtain ⟨noted, variants, made, -⟩ := (declared d).1 ended
      exact ⟨noted, variants, made⟩
    · rintro ⟨noted, variants, made⟩
      exact ⟨_, (declared _).2 ⟨noted, variants, made, rfl⟩⟩
  refine ⟨returns, fun d ended => ?_, fun json => ?_⟩
  · obtain ⟨-, variants, made, rfl⟩ := (declared d).1 ended
    exact ⟨_, rfl, areVariantsOf_variantsAfter made⟩
  · refine returns.2 ⟨namesVariants_of_isJson json, fun v mem => ?_⟩
    have v_json : IsJson v := isJson_of_enumValues? json found v mem
    exact ⟨v_json.memberText, v_json.enumValueText⟩

end ClientGen.Schema
