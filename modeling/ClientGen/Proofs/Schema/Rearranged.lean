import ClientGen.Proofs.Schema.Nested
import ClientGen.Proofs.Schema.Parts

/-!
# The order of alternatives does not matter

A schema is rearranged by permuting or repeating what `oneOf`, `anyOf`, `allOf`, `enum`, `type` and
`required` list, in the schema and in any schema in it (`Rearranged`). The values of `const` and the
members of `enum` stay as they are, and so do all other keywords that lowering reads; under keywords
that it does not read anything may change.

* `sameSchema_of_rearranged`: lowering cannot tell a rearranged schema apart, where it cannot tell
  apart the schemas in it. `lowerWithin_matches` follows by induction on the levels that are left.
* **Rearranging keeps the type** (`sameType_of_rearranged`), for all components and depth limits.
-/

namespace ClientGen.Schema

open Report (Matches)

/-- Values under a keyword that differ by rearrangements, where `R` relates schemas. Alternatives
are permuted and repeated first, so that the copies of one may be rearranged in different ways. -/
inductive RearrangedAt (R : Value → Value → Prop) : Role → Value → Value → Prop
  | same {role} (v) : RearrangedAt R role v v
  | schema {v v'} : R v v' → RearrangedAt R .schema v v'
  | sequence {items items'} : List.Forall₂ R items items' →
      RearrangedAt R .sequence (.list items) (.list items')
  | alternatives {items chosen items'} : SameItems items chosen → List.Forall₂ R chosen items' →
      RearrangedAt R .alternatives (.list items) (.list items')
  | choices {items items'} : SameItems items items' →
      RearrangedAt R .choices (.list items) (.list items')
  | named {ps ps'} : Entrywise (fun _ => R) ps ps' → RearrangedAt R .named (.map ps) (.map ps')
  | unread (v v') : RearrangedAt R .unread v v'

/-- A schema and what it becomes when alternatives in it are permuted or repeated. -/
inductive Rearranged : Value → Value → Prop
  | same (v) : Rearranged v v
  | schema {es es'} : Entrywise (fun k => RearrangedAt Rearranged (roleOf k)) es es' →
      Rearranged (.map es) (.map es')

/-! ### Reading rearranged values -/

variable {R : Value → Value → Prop}

theorem RearrangedAt.mono {S : Value → Value → Prop} (imp : ∀ v v', R v v' → S v v') {role : Role}
    {v v' : Value} (h : RearrangedAt R role v v') : RearrangedAt S role v v' := by
  cases h with
  | same => exact .same _
  | schema related => exact .schema (imp _ _ related)
  | sequence related => exact .sequence (related.imp imp)
  | alternatives same related => exact .alternatives same (related.imp imp)
  | choices same => exact .choices same
  | named entries => exact .named (entries.imp fun _ => imp)
  | unread => exact .unread _ _

theorem RearrangedAt.sameItems {v v' : Value} (h : RearrangedAt R .choices v v') :
    SameItems (itemsOf v) (itemsOf v') := by
  cases h with
  | same => exact .refl _
  | choices same => exact same

theorem isRequired_flatten (lists : List (List Key)) (k : Key) :
    isRequired lists.flatten k = lists.any fun ks => isRequired ks k := List.any_flatten

theorem requiredKeys?_matches {v v' : Value} (h : RearrangedAt R .choices v v') :
    Matches (fun ks ks' => ∀ k, isRequired ks k = isRequired ks' k)
      (Report.ofOption (requiredKeys? v) : Lowering _) (Report.ofOption (requiredKeys? v')) := by
  cases h with
  | same => exact .of_eq (fun _ _ => rfl) rfl
  | @choices items items' same =>
    have read : ∀ items, (Report.ofOption (requiredKeys? (.list items)) : Lowering _) =
        List.flatten <$> eachOf (fun v => Report.ofOption v.memberKeys?) items := by
      intro items
      rw [← ofOption_mapM]
      cases items with
      | nil => rfl
      | cons v rest =>
        change Report.ofOption (((v :: rest).mapM Value.memberKeys?).map List.flatten) = _
        cases (v :: rest).mapM Value.memberKeys? <;> rfl
    rw [read, read]
    refine (eachOf_matches_sameItems _ same).map fun lists lists' same k => ?_
    rw [isRequired_flatten, isRequired_flatten, Bool.eq_iff_iff, List.any_eq_true,
      List.any_eq_true]
    exact exists_congr fun ks => and_congr_left' (same ks)

theorem typesOf_matches {es es' : Entries}
    (h : RearrangedAt R .choices (es.get "type") (es'.get "type")) :
    Matches SameItems (Report.ofText (typesOf es) : Lowering _) (Report.ofText (typesOf es')) := by
  unfold typesOf
  revert h
  generalize es.get "type" = v
  generalize es'.get "type" = v'
  intro h
  cases h with
  | same => exact .of_eq SameItems.refl rfl
  | @choices items items' same =>
    have read : ∀ items : List Value, (Report.ofText (items.mapM Value.shown) : Lowering _) =
        eachOf (fun v => Report.ofText v.shown) items := ofText_mapM _
    simp only [read]
    exact eachOf_matches_sameItems _ same

section Readers

variable (refl : ∀ v, R v v) {v v' : Value}

include refl

theorem propertyEntries?_matches (h : RearrangedAt R .named v v') :
    Matches (Entrywise fun _ => R) (Report.ofOption (propertyEntries? v) : Lowering _)
      (Report.ofOption (propertyEntries? v')) := by
  cases h with
  | same => exact .of_eq (Entrywise.refl fun _ => refl) rfl
  | named entries =>
    cases entries with
    | nil => exact .pure .nil
    | cons first others => exact .pure (.cons first others)

theorem RearrangedAt.of_schema (h : RearrangedAt R .schema v v') : R v v' := by
  cases h with
  | same => exact refl _
  | schema related => exact related

theorem RearrangedAt.of_sequence (h : RearrangedAt R .sequence v v') :
    List.Forall₂ R (itemsOf v) (itemsOf v') := by
  cases h with
  | same => exact List.forall₂_same.2 fun v _ => refl v
  | sequence related => exact related

theorem RearrangedAt.of_alternatives (h : RearrangedAt R .alternatives v v') :
    ∃ chosen, SameItems (itemsOf v) chosen ∧ List.Forall₂ R chosen (itemsOf v') := by
  cases h with
  | same => exact ⟨_, .refl _, List.forall₂_same.2 fun v _ => refl v⟩
  | alternatives same related => exact ⟨_, same, related⟩

end Readers

theorem RearrangedAt.truthy {v v' : Value} (h : RearrangedAt R .named v v') :
    v.truthy = v'.truthy := by
  cases h with
  | same => rfl
  | named entries => cases entries <;> rfl

/-- Rearranging the parts of a schema, where the schemas in them are alike, makes no difference. -/
theorem sameParts_of_rearrangedAt {sub : Value → Lowering TypeExpr} {es es' : Entries}
    (related : ∀ keyword ∈ partKeywords,
      RearrangedAt (Alike sub) (roleOf (.str keyword)) (es.get keyword) (es'.get keyword))
    (present : ∀ keyword ∈ partKeywords, es.has keyword = es'.has keyword) :
    SameParts sub es es' where
  required := requiredKeys?_matches (related "required" (by decide))
  properties := propertyEntries?_matches .refl (related "properties" (by decide))
  hasProperties := (related "properties" (by decide)).truthy
  additional := (related "additionalProperties" (by decide)).of_schema .refl
  items := (related "items" (by decide)).of_schema .refl
  sequence := (related "prefixItems" (by decide)).of_sequence .refl
  alternatives := by
    intro keyword mem
    have part := related keyword (List.mem_append_right _ mem)
    rw [roleOf_alternatives mem] at part
    exact part.of_alternatives .refl
  present := present

/-! ### Rearranged schemas -/

section Lookups

variable {es es' : Entries} (h : Entrywise (fun k => RearrangedAt R (roleOf k)) es es')

include h

theorem rearrangedAt_get (name : String) :
    RearrangedAt R (roleOf (.str name)) (es.get name) (es'.get name) := by
  have found := h.find? name
  rw [Entries.get, Entries.get]
  revert found
  generalize es.find? name = o
  generalize es'.find? name = o'
  rintro (related | _)
  · exact related
  · exact .same _

theorem find?_eq_of_fixed {name : String} (role : roleOf (.str name) = .fixed) :
    es.find? name = es'.find? name := by
  have found := h.find? name
  rw [role] at found
  revert found
  generalize es.find? name = o
  generalize es'.find? name = o'
  rintro (related | _)
  · cases related
    rfl
  · rfl

theorem get_eq_of_fixed {name : String} (role : roleOf (.str name) = .fixed) :
    es.get name = es'.get name := by
  rw [Entries.get, Entries.get, find?_eq_of_fixed h role]

end Lookups

theorem Rearranged.form {v v' : Value} (h : Rearranged v v') : SameForm v v' := by
  cases h with
  | same => exact .same _
  | schema entries =>
    cases entries with
    | nil => exact .same _
    | cons first others => exact .maps _ _ _ _

theorem Rearranged.readOnly {v v' : Value} (h : Rearranged v v') :
    isReadOnly v = isReadOnly v' := by
  cases h with
  | same => rfl
  | @schema es es' entries =>
    change (es.get "readOnly").isTrue = (es'.get "readOnly").isTrue
    rw [get_eq_of_fixed entries rfl]

/-- Lowering cannot tell a rearranged schema apart, where it cannot tell apart the schemas in
it. -/
theorem sameSchema_of_rearranged {sub : Value → Lowering TypeExpr} {es es' : Entries}
    (below : ∀ v v', Rearranged v v' → Alike sub v v')
    (h : Entrywise (fun k => RearrangedAt Rearranged (roleOf k)) es es') :
    SameSchema sub es es' where
  toSameParts := sameParts_of_rearrangedAt
    (fun keyword _ => (rearrangedAt_get h keyword).mono below) fun keyword _ => h.has keyword
  ref := by rw [get_eq_of_fixed h rfl]
  literals := by
    have const : es.find? "const" = es'.find? "const" := find?_eq_of_fixed h rfl
    rw [literalsOf, literalsOf, const]
    split
    · exact .refl _
    · exact (rearrangedAt_get h "enum").sameItems
  types := typesOf_matches (rearrangedAt_get h "type")

theorem lowerWithin_matches (scope : Scope) (budget : Nat) {v v' : Value} (h : Rearranged v v') :
    Matches (· = ·) (lowerWithin scope budget v) (lowerWithin scope budget v') := by
  -- The induction is for all pairs, as copies of an alternative may be rearranged differently.
  induction budget generalizing v v' with
  | zero =>
    cases h with
    | same => exact .refl _
    | @schema es es' entries =>
      have ref : es.get "$ref" = es'.get "$ref" := get_eq_of_fixed entries rfl
      rw [lowerWithin, lowerWithin]
      refine (Matches.refl _).bind fun _ _ _ => .pure ?_
      rw [fallback, fallback, ref]
  | succ budget ih =>
    cases h with
    | same => exact .refl _
    | @schema es es' entries =>
      have below : ∀ v v', Rearranged v v' → Alike (lowerWithin scope budget) v v' :=
        fun v v' h => ⟨ih h, h.form, h.readOnly⟩
      have same := sameSchema_of_rearranged below entries
      have nullable : es.get "nullable" = es'.get "nullable" := get_eq_of_fixed entries rfl
      rw [lowerWithin, lowerWithin, nullable]
      exact (same.lowerEntries scope).bind fun t t' eq => .pure (by rw [eq])

/-- **The type of a schema does not depend on the order of alternatives**, or on how often one is
there, in the schema and in any schema in it. -/
theorem sameType_of_rearranged {S S' : Value} (h : Rearranged S S') (scope : Scope) :
    SameType scope S' S :=
  fun t => (Report.matches_eq_iff.1 (lowerWithin_matches scope scope.budget h) t).symm

theorem sameType_of_swapped :
    let text : Value := .map [(.str "type", .str "string")]
    let numbers (ns : List Int) : Value := .map [(.str "enum", .list (ns.map .int))]
    let oneOf (vs : List Value) : Value := .map [(.str "oneOf", .list vs)]
    Rearranged (oneOf [numbers [1, 2], text]) (oneOf [text, numbers [2, 1, 2]]) ∧
      (lower ⟨[], 64⟩ (oneOf [text, numbers [2, 1, 2]])).result =
        .ok (.union [.string, .literal "1", .literal "2"]) := by
  intro text numbers oneOf
  have values : SameItems [Value.int 1, .int 2] [.int 2, .int 1, .int 2] := by
    intro v
    simp only [List.mem_cons]
    tauto
  have schemas : SameItems [numbers [1, 2], text] [text, numbers [1, 2]] := by
    intro v
    simp only [List.mem_cons]
    tauto
  have swapped : Rearranged (numbers [1, 2]) (numbers [2, 1, 2]) :=
    .schema (.cons (.choices values) .nil)
  have rearranged : Rearranged (oneOf [numbers [1, 2], text]) (oneOf [text, numbers [2, 1, 2]]) :=
    .schema (.cons (.alternatives schemas (.cons (.same _) (.cons swapped .nil))) .nil)
  exact ⟨rearranged, (sameType_of_rearranged rearranged ⟨[], 64⟩ _).2 (by decide +kernel)⟩

end ClientGen.Schema
