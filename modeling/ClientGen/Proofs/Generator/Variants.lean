import ClientGen.Crate.Model
import ClientGen.Proofs.Report.Matching
import ClientGen.Proofs.Schema.Enumerations

/-!
# The variants of enumerations

In both languages a list of values makes an enumeration, whose variants get the names of the values,
with numbers where names meet. The numbers are searched for until a name is free, and the search ends
(`Name.distinctFrom_eq_candidate`).

**No value is lost and no name is given twice** (`variants_of_lists`): in TypeScript each value but
`null` has a variant of its own, and in Rust each text has one. The initializer of a text is read as
its UTF-16 units, so that the two halves of a character are read as the character
(`halves_are_read_joined`).
-/

namespace ClientGen

open Report (Returns bind_pure_result_eq_ok_iff)

namespace Crate

/-- The variants stand for the texts, in their order. -/
theorem values_variantsAfter (used texts : List String) :
    (variantsAfter used texts).map (·.value) = texts := by
  induction texts generalizing used with
  | nil => rfl
  | cons text rest ih => rw [variantsAfter, List.map_cons, ih]

/-- The names of variants are given one after the other. -/
theorem names_variantsAfter (used texts : List String) :
    (variantsAfter used texts).map (·.name) = Name.distinctNames used (texts.map variantBase) := by
  induction texts generalizing used with
  | nil => rfl
  | cons text rest ih =>
    rw [variantsAfter, List.map_cons, ih, List.map_cons, Name.distinctNames]

theorem allTexts?_map_str (texts : List String) : allTexts? (texts.map .str) = some texts := by
  induction texts with
  | nil => rfl
  | cons text rest ih =>
    rw [allTexts?] at ih ⊢
    rw [List.map_cons, List.mapM_cons, ih]
    rfl

/-- **A schema that lists texts becomes an enum of them**, if its types can be read: it has a variant
for each text, where the text stands first, and their names are distinct. -/
theorem modelOf_texts {components : Schema.Components} {name : String} {es : Entries}
    {texts : List String} (some : texts ≠ []) (listed : es.get "enum" = .list (texts.map .str)) :
    (Returns (modelOf components name (.map es)) ↔ Returns (typesOf es)) ∧
    ∀ m, (modelOf components name (.map es)).result = .ok m →
      ∃ variants, m.shape = .enum variants ∧ variants.map (·.value) = texts.eraseDups ∧
        (variants.map (·.name)).Nodup := by
  have found : enumTexts? es = .some texts := by
    obtain ⟨text, rest, rfl⟩ := List.exists_cons_of_ne_nil some
    rw [enumTexts?, listed]
    exact allTexts?_map_str (text :: rest)
  constructor
  · unfold modelOf
    dsimp only
    rw [found]
    exact Report.returns_bind_pure_iff
  · intro m ended
    unfold modelOf at ended
    dsimp only at ended
    rw [found] at ended
    obtain ⟨types, -, rfl⟩ := bind_pure_result_eq_ok_iff.1 ended
    refine ⟨_, rfl, values_variantsAfter [] _, ?_⟩
    rw [names_variantsAfter]
    exact (Name.nodup_distinctNames [] _).1

end Crate

open Schema (AreVariantsOf Context IsWritable NamesVariants Scope withoutNull)

/-- **The variants of lists in both languages.** A schema that lists values becomes an enumeration in
every context, exactly if each of them but `null` can be written, as all values of JSON can. It has a
variant for each of these values, in order, whose name is plain and its own, and the initializer of a
text is a literal that is read as the text, with its halves of characters joined. A schema that lists
texts becomes an enum of Rust, if its types can be read, with a variant for each text, where the text
stands first, under a name of its own. Each search for a free name ends with the first one. -/
theorem variants_of_lists :
    (∀ (scope : Scope) (name : String) (es : Entries) (c : Context) (values : List Value),
      Entries.find? "$ref" es = none → es.get "enum" = .list values → withoutNull values ≠ [] →
      (Returns (Schema.Mapper.declare scope name (.map es) c).1 ↔
        NamesVariants es ∧ ∀ v ∈ withoutNull values, IsWritable v) ∧
      (∀ d, (Schema.Mapper.declare scope name (.map es) c).1.result = .ok d →
        ∃ e, d = .enumeration e ∧ AreVariantsOf (withoutNull values) e.variants) ∧
      (Value.IsJson (.map es) → Returns (Schema.Mapper.declare scope name (.map es) c).1)) ∧
    (∀ s, Name.unitName (Json.joined s) = Name.unitName s ∧
      (Text.Kept s.toList → Json.Unpaired (Text.codes s.toList) → Json.joined s = s)) ∧
    (∀ (components : Schema.Components) (name : String) (es : Entries) (texts : List String),
      texts ≠ [] → es.get "enum" = .list (texts.map .str) →
      (Returns (Crate.modelOf components name (.map es)) ↔ Returns (Crate.typesOf es)) ∧
      ∀ m, (Crate.modelOf components name (.map es)).result = .ok m →
        ∃ variants, m.shape = .enum variants ∧ variants.map (·.value) = texts.eraseDups ∧
          (variants.map (·.name)).Nodup) ∧
    ∀ (taken : List String) (base : String), ∃ k ≤ taken.length + 1,
      Name.distinctFrom taken base = Name.candidate base k ∧ Name.candidate base k ∉ taken ∧
        ∀ j < k, Name.candidate base j ∈ taken :=
  ⟨fun _ _ _ _ _ own listed some => Schema.declared_enumeration own listed some,
    fun s => ⟨Json.unitName_joined s, Json.joined_eq_self⟩,
    fun _ _ _ _ some listed => Crate.modelOf_texts some listed,
    Name.distinctFrom_eq_candidate⟩

/-- A schema that lists values. -/
def listing (values : List Value) : Entries := [(.str "enum", .list values)]

/-- Texts whose names meet, two of them the same. -/
def switchTexts : List String := ["on", "on2", "ON", "on"]

theorem variants_of_lists_of_switch :
    (∃ e, (Schema.Mapper.declare ⟨[], 64⟩ "Switch"
        (.map (listing (switchTexts.map .str ++ [.null, .bool true]))) {}).1.result =
          .ok (.enumeration e) ∧
      AreVariantsOf (switchTexts.map .str ++ [.bool true]) e.variants ∧
      e.variants = [⟨"On", "\"on\""⟩, ⟨"On2", "\"on2\""⟩, ⟨"On3", "\"ON\""⟩, ⟨"On4", "\"on\""⟩,
        ⟨"True", "\"true\""⟩]) ∧
    ∃ m variants, (Crate.modelOf [] "Switch" (.map (listing (switchTexts.map .str)))).result =
        .ok m ∧
      m.shape = .enum variants ∧ variants.map (·.value) = ["on", "on2", "ON"] ∧
      (variants.map (·.name)).Nodup := by
  obtain ⟨enumerations, -, enums, -⟩ := variants_of_lists
  constructor
  · have declared : (Schema.Mapper.declare ⟨[], 64⟩ "Switch"
        (.map (listing (switchTexts.map .str ++ [.null, .bool true]))) {}).1.result =
        .ok (.enumeration { name := "Switch", variants := [⟨"On", "\"on\""⟩, ⟨"On2", "\"on2\""⟩,
          ⟨"On3", "\"ON\""⟩, ⟨"On4", "\"on\""⟩, ⟨"True", "\"true\""⟩] }) := by
      decide +kernel
    obtain ⟨-, each, -⟩ := enumerations ⟨[], 64⟩ "Switch"
      (listing (switchTexts.map .str ++ [.null, .bool true])) {} _ rfl rfl (by decide)
    obtain ⟨e, same, variants⟩ := each _ declared
    cases same
    exact ⟨_, declared, variants, rfl⟩
  · obtain ⟨returns, each⟩ := enums [] "Switch" (listing (switchTexts.map .str)) switchTexts
      (by decide) rfl
    obtain ⟨m, ended⟩ := returns.2 ⟨_, rfl⟩
    obtain ⟨variants, shape, values, distinct⟩ := each m ended
    exact ⟨m, variants, ended, shape, values.trans (by decide), distinct⟩

/-- The two halves of a character, each of which is a code point. -/
def halves : String := String.ofList (Text.ofCodes [0xd83d, 0xde00])

/-- The initializer of two halves is read as the character that they make, and no longer as the two.
A date is no value of JSON and cannot be written. -/
theorem halves_are_read_joined :
    (∃ e text, (Schema.Mapper.declare ⟨[], 64⟩ "Mood" (.map (listing [.str halves])) {}).1.result =
        .ok (.enumeration e) ∧
      e.variants = [⟨"Empty", some text⟩] ∧
      Json.read text = .ok (.str (String.ofList (Text.ofCodes [0x1f600]))) ∧
      String.ofList (Text.ofCodes [0x1f600]) ≠ halves) ∧
    ¬Returns (Schema.Mapper.declare ⟨[], 64⟩ "Day"
      (.map (listing [.other (.moment ⟨2020, 1, 1, none⟩)])) {}).1 := by
  refine ⟨⟨{ name := "Mood", variants := [⟨"Empty", some (Json.quote halves)⟩] }, Json.quote halves,
    ?_, rfl, ?_, by decide⟩, ?_⟩
  · decide +kernel
  · have whole : Json.joined halves = String.ofList (Text.ofCodes [0x1f600]) := by decide
    rw [Json.read_quote, whole]
  · have fails : (Schema.Mapper.declare ⟨[], 64⟩ "Day"
        (.map (listing [.other (.moment ⟨2020, 1, 1, none⟩)])) {}).1.result.isOk = false := by
      decide +kernel
    rintro ⟨d, ended⟩
    rw [ended] at fails
    cases fails

end ClientGen
