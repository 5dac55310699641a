import ClientGen.Proofs.Schema.Chain

/-!
# Declarations that take `null`

The type of a schema may take `null`, and its declaration not. A declaration takes it exactly if
the schema that the references lead to becomes an alias, and its own type takes it
(`declare_takesNull_iff`). So what is lost is the `null` of a schema that becomes an interface, and
what a reference says of it beside the component that it leads to (`declare_takesNull`,
`declare_drops_null`).
-/

namespace ClientGen

/-- Whether a declaration is an alias whose type takes `null`. -/
def Declaration.takesNull : Declaration → Bool
  | typeAlias a => a.type.containsNull
  | _ => false

namespace Schema

open Report (bind_result_eq_ok_iff ofText_result_eq_ok_iff)

/-- Whether a declaration is made that takes `null`. -/
def TakesNull (x : Lowering Declaration) : Prop :=
  ∃ d, x.result = .ok d ∧ d.takesNull = true

/-- Whether a schema that is no reference becomes neither an enumeration nor an interface, and its
type takes `null`. -/
structure KeepsNull (scope : Scope) (es : Entries) : Prop where
  unlisted : enumValues? es = none
  noInterface : isInterface es = .ok false
  typed : ∃ t, (lower scope (.map es)).result = .ok t ∧ t.containsNull = true

/-! ### Schemas that are no references -/

theorem takesNull_declareOwn_iff {scope : Scope} {typeName : String} {es : Entries} :
    TakesNull (declareOwn scope typeName es) ↔ KeepsNull scope es := by
  constructor
  · rintro ⟨d, ended, null⟩
    unfold declareOwn at ended
    split at ended
    · obtain ⟨variants, -, ended⟩ := bind_result_eq_ok_iff.1 ended
      cases ended
      cases null
    · next unlisted =>
      obtain ⟨interfaced, decided, ended⟩ := bind_result_eq_ok_iff.1 ended
      cases interfaced with
      | true =>
        obtain ⟨i, -, ended⟩ := bind_result_eq_ok_iff.1 ended
        cases ended
        cases null
      | false =>
        obtain ⟨t, typed, ended⟩ := bind_result_eq_ok_iff.1 ended
        cases ended
        exact ⟨unlisted, ofText_result_eq_ok_iff.1 decided, t, typed, null⟩
  · rintro ⟨unlisted, noInterface, t, typed, null⟩
    refine ⟨.typeAlias { name := typeName, type := t, documentation := documentation es }, ?_, null⟩
    rw [declareOwn, unlisted]
    dsimp only
    rw [bind_result_eq_ok_iff]
    refine ⟨false, ofText_result_eq_ok_iff.2 noInterface, ?_⟩
    exact bind_result_eq_ok_iff.2 ⟨t, typed, rfl⟩

theorem enumValues?_of_has {es : Entries} (unlisted : Entries.has "enum" es = false) :
    enumValues? es = none := by
  have none : Entries.find? "enum" es = none := by simpa [Entries.has] using unlisted
  rw [enumValues?, Entries.get, none]
  rfl

/-! ### All schemas -/

/-- What stops a chain of references does not take `null`. -/
theorem Stops.takesNull {typeName : String} {d : Declaration} (h : Stops typeName d) :
    d.takesNull = false := by
  rcases h with ⟨ref, rfl⟩ | ⟨closing, rfl⟩
  · rfl
  · unfold Declaration.takesNull circularAlias
    dsimp only
    split <;> rfl

/-- **A declaration takes `null` exactly if the schema that the references lead to keeps it.** -/
theorem declare_takesNull_iff {scope : Scope} {name : String} {es : Entries} :
    TakesNull (declare scope [] name (.map es)) ↔
      ∃ last, LeadsTo scope.components [name] es last ∧ KeepsNull scope last := by
  constructor
  · rintro ⟨d, ended, null⟩
    rcases declareWithin_cases ended with stops | ⟨last, leads, ended⟩
    · rw [stops.takesNull] at null
      cases null
    · exact ⟨last, leads, takesNull_declareOwn_iff.1 ⟨d, ended, null⟩⟩
  · rintro ⟨last, leads, keeps⟩
    obtain ⟨d, ended, null⟩ : TakesNull (declareOwn scope (Name.typeName name) last) :=
      takesNull_declareOwn_iff.2 keeps
    exact ⟨d, declareWithin_of_leadsTo leads ended List.countP_le_length none, null⟩

theorem leadsTo_own_iff {components : Components} {stack : Stack} {es last : Entries}
    (own : Entries.find? "$ref" es = none) :
    LeadsTo components stack es last ↔ NamesVariants es ∧ last = es := by
  constructor
  · rintro (⟨noted, -⟩ | ⟨-, refers, -⟩)
    · exact ⟨noted, rfl⟩
    · rw [own] at refers
      cases refers
  · rintro ⟨noted, rfl⟩
    exact .here noted own

/-- **Which declarations keep `null`.** Of a schema that lists no values and whose type takes `null`,
the declaration takes it exactly if the schema that the references lead to keeps it. So a schema
that is no reference keeps it exactly if it becomes no interface. -/
theorem declare_takesNull {scope : Scope} {name : String} {es : Entries} {t : TypeExpr}
    (unlisted : Entries.has "enum" es = false) (typed : (lower scope (.map es)).result = .ok t)
    (null : t.containsNull = true) :
    (TakesNull (declare scope [] name (.map es)) ↔
      ∃ last, LeadsTo scope.components [name] es last ∧ KeepsNull scope last) ∧
    (Entries.find? "$ref" es = none → (TakesNull (declare scope [] name (.map es)) ↔
      NamesVariants es ∧ isInterface es = .ok false)) := by
  refine ⟨declare_takesNull_iff, fun own => ?_⟩
  rw [declare_takesNull_iff]
  simp only [leadsTo_own_iff own, and_assoc, exists_and_left, exists_eq_left]
  refine and_congr_right fun _ => ⟨fun keeps => keeps.noInterface, fun noInterface => ?_⟩
  exact ⟨enumValues?_of_has unlisted, noInterface, t, typed, null⟩

/-- A schema of text or `null`. -/
def textOrNull : Entries := [(.str "type", .list [.str "string", .str "null"])]

/-- A schema of an object with a name, or `null`. -/
def namedOrNull : Entries :=
  [(.str "type", .str "object"), (.str "nullable", .bool true),
    (.str "properties", .map [(.str "name", .map [(.str "type", .str "string")])])]

/-- A schema of a component, or `null`. -/
def refersOrNull (name : String) : Entries :=
  [(.str "$ref", .str (refPrefix ++ name)), (.str "nullable", .bool true)]

/-- Components of text, with `null` and without. -/
def texts : Scope :=
  ⟨[("Note", .map textOrNull), ("Text", .map [(.str "type", .str "string")])], 64⟩

theorem declare_takesNull_of_refersOrNull :
    ∃ t, (lower texts (.map (refersOrNull "Note"))).result = .ok t ∧ t.containsNull = true ∧
      (TakesNull (declare texts [] "Draft" (.map (refersOrNull "Note"))) ↔
        ∃ last, LeadsTo texts.components ["Draft"] (refersOrNull "Note") last ∧
          KeepsNull texts last) ∧
      (Entries.find? "$ref" (refersOrNull "Note") = none →
        (TakesNull (declare texts [] "Draft" (.map (refersOrNull "Note"))) ↔
          NamesVariants (refersOrNull "Note") ∧ isInterface (refersOrNull "Note") = .ok false)) := by
  have typed : (lower texts (.map (refersOrNull "Note"))).result =
      .ok (.union [.null, .named "Note"]) := by
    decide +kernel
  exact ⟨_, typed, rfl, declare_takesNull (by decide) typed rfl⟩

/-- The types of an object or `null`, and of a reference or `null`, take `null`, but their
declarations do not: the object becomes an interface, and the reference an alias of what it leads
to. -/
theorem declare_drops_null :
    ((lower texts (.map namedOrNull)).result.map TypeExpr.containsNull = .ok true ∧
      (declare texts [] "Pet" (.map namedOrNull)).result.map Declaration.takesNull = .ok false) ∧
    (lower texts (.map (refersOrNull "Text"))).result.map TypeExpr.containsNull = .ok true ∧
      (declare texts [] "Draft" (.map (refersOrNull "Text"))).result.map Declaration.takesNull =
        .ok false := by
  decide +kernel

end Schema

end ClientGen
