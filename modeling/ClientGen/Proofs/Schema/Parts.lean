import ClientGen.Proofs.Report.Matching
import ClientGen.Proofs.Schema.Nested
import ClientGen.Proofs.TypeExpr.Normal
import ClientGen.Schema.Lowering
import Mathlib.Data.List.Forall2

/-!
# Schemas with the same parts

Lowering reads a schema through a fixed set of keywords. Two schemas whose keywords hold parts that
are lowered alike (`SameParts`) are lowered alike as objects, arrays and combinations, and two whose
references, literal values and types agree as well (`SameSchema`) are lowered alike altogether
(`SameSchema.lowerEntries`). Alternatives need to agree as sets only: `unionOf` and `interOf` do not
see their order.

Alike means here: both fail, or both end in the same type. What is noted on the way may differ.
-/

namespace ClientGen.Schema

open Report (Matches)

/-! ### Steps on each item of a list -/

/-- Whether two lists have the same items, in whatever order and however often. -/
def SameItems {α : Type} (as bs : List α) : Prop := ∀ a, a ∈ as ↔ a ∈ bs

theorem SameItems.refl {α : Type} (as : List α) : SameItems as as := fun _ => Iff.rfl

theorem SameItems.symm {α : Type} {as bs : List α} (h : SameItems as bs) : SameItems bs as :=
  fun a => (h a).symm

theorem SameItems.eq_nil_iff {α : Type} {as bs : List α} (h : SameItems as bs) :
    as = [] ↔ bs = [] := by
  rw [List.eq_nil_iff_forall_not_mem, List.eq_nil_iff_forall_not_mem]
  exact forall_congr' fun a => not_congr (h a)

section Each

variable {α β γ δ : Type}

theorem eachOf_matches {f : α → Lowering γ} {g : β → Lowering δ} {r : γ → δ → Prop} {as : List α}
    {bs : List β} (h : List.Forall₂ (fun a b => Matches r (f a) (g b)) as bs) :
    Matches (List.Forall₂ r) (eachOf f as) (eachOf g bs) := by
  induction h with
  | nil => exact .pure .nil
  | cons first _ ih =>
    exact first.bind fun c d hcd => ih.bind fun cs ds hs => .pure (.cons hcd hs)

theorem eachOf_matches_eq {f : α → Lowering γ} {g : β → Lowering γ} {as : List α} {bs : List β}
    (h : List.Forall₂ (fun a b => Matches (· = ·) (f a) (g b)) as bs) :
    Matches (· = ·) (eachOf f as) (eachOf g bs) :=
  (eachOf_matches h).mono fun cs ds hs => by rwa [List.forall₂_eq_eq_eq] at hs

/-- The steps on a list end in values if each of them does. -/
theorem eachOf_result_eq_ok_iff {f : α → Lowering β} {as : List α} {bs : List β} :
    (eachOf f as).result = .ok bs ↔ List.Forall₂ (fun a b => (f a).result = .ok b) as bs := by
  induction as generalizing bs with
  | nil =>
    rw [List.forall₂_nil_left_iff]
    constructor
    · intro h
      cases h
      rfl
    · rintro rfl
      rfl
  | cons a rest ih =>
    rw [eachOf, Report.bind_result_eq_ok_iff, List.forall₂_cons_left_iff]
    simp only [Report.bind_result_eq_ok_iff, ih]
    constructor
    · rintro ⟨b, hb, cs, hcs, eq⟩
      cases eq
      exact ⟨b, cs, hb, hcs, rfl⟩
    · rintro ⟨b, cs, hb, hcs, rfl⟩
      exact ⟨b, hb, cs, hcs, rfl⟩

theorem mem_of_eachOf {f : α → Lowering β} {as : List α} {bs : List β}
    (h : (eachOf f as).result = .ok bs) {b : β} :
    b ∈ bs ↔ ∃ a ∈ as, (f a).result = .ok b := by
  induction eachOf_result_eq_ok_iff.1 h with
  | nil => simp
  | @cons a c as bs first others ih =>
    rw [List.mem_cons, ih (eachOf_result_eq_ok_iff.2 others)]
    simp only [List.mem_cons, exists_eq_or_imp, first, Except.ok.injEq]
    exact or_congr_left eq_comm

theorem exists_eachOf_iff {f : α → Lowering β} {as : List α} :
    (∃ bs, (eachOf f as).result = .ok bs) ↔ ∀ a ∈ as, ∃ b, (f a).result = .ok b := by
  simp only [eachOf_result_eq_ok_iff]
  induction as with
  | nil => simp
  | cons a rest ih =>
    rw [List.forall_mem_cons, ← ih]
    constructor
    · rintro ⟨_, h⟩
      obtain ⟨b, bs, hb, hbs, rfl⟩ := List.forall₂_cons_left_iff.1 h
      exact ⟨⟨b, hb⟩, bs, hbs⟩
    · rintro ⟨⟨b, hb⟩, bs, hbs⟩
      exact ⟨b :: bs, .cons hb hbs⟩

/-- The values of the steps on a list do not depend on its order, or on how often an item is
there. -/
theorem eachOf_matches_sameItems (f : α → Lowering β) {as as' : List α} (h : SameItems as as') :
    Matches SameItems (eachOf f as) (eachOf f as') := by
  refine .of_ok (fun bs ok => ?_) fun bs ok => ?_
  · obtain ⟨bs', ok'⟩ := exists_eachOf_iff.2 fun a ha =>
      exists_eachOf_iff.1 ⟨bs, ok⟩ a ((h a).2 ha)
    refine ⟨bs', ok', fun b => ?_⟩
    simp only [mem_of_eachOf ok, mem_of_eachOf ok', h _]
  · exact exists_eachOf_iff.2 fun a ha => exists_eachOf_iff.1 ⟨bs, ok⟩ a ((h a).1 ha)

theorem ofText_mapM (f : α → Except Textless β) (as : List α) :
    (Report.ofText (as.mapM f) : Lowering (List β)) = eachOf (fun a => Report.ofText (f a)) as := by
  induction as with
  | nil => rfl
  | cons a rest ih =>
    rw [List.mapM_cons, Report.ofText_bind, eachOf]
    congr 1
    funext b
    rw [Report.ofText_bind, ih]
    rfl

theorem ofOption_mapM (f : α → Option β) (as : List α) :
    (Report.ofOption (as.mapM f) : Lowering (List β)) =
      eachOf (fun a => Report.ofOption (f a)) as := by
  induction as with
  | nil => rfl
  | cons a rest ih =>
    rw [List.mapM_cons, Report.ofOption_bind, eachOf]
    congr 1
    funext b
    rw [Report.ofOption_bind, ih]
    rfl

end Each

/-! ### Values that are lowered alike -/

/-- Entries under the same keys in the same order, with values that are related. -/
inductive Entrywise (R : Key → Value → Value → Prop) : Entries → Entries → Prop
  | nil : Entrywise R [] []
  | cons {k v v' es es'} : R k v v' → Entrywise R es es' →
      Entrywise R ((k, v) :: es) ((k, v') :: es')

theorem Entrywise.find? {R : Key → Value → Value → Prop} {es es' : Entries}
    (h : Entrywise R es es') (name : String) :
    Option.Rel (R (.str name)) (es.find? name) (es'.find? name) := by
  induction h with
  | nil => exact .none
  | @cons k v v' es es' first _ ih =>
    rw [Entries.find?, Entries.find?]
    split
    · next key =>
      subst key
      exact .some first
    · exact ih

theorem Entrywise.refl {R : Key → Value → Value → Prop} (refl : ∀ k v, R k v v) (es : Entries) :
    Entrywise R es es := by
  induction es with
  | nil => exact .nil
  | cons e rest ih => exact .cons (refl e.1 e.2) ih

theorem Entrywise.imp {R S : Key → Value → Value → Prop} (imp : ∀ k v v', R k v v' → S k v v')
    {es es' : Entries} (h : Entrywise R es es') : Entrywise S es es' := by
  induction h with
  | nil => exact .nil
  | cons first _ ih => exact .cons (imp _ _ _ first) ih

theorem Entrywise.has {R : Key → Value → Value → Prop} {es es' : Entries} (h : Entrywise R es es')
    (name : String) : es.has name = es'.has name := by
  have found := h.find? name
  rw [Entries.has, Entries.has]
  revert found
  generalize es.find? name = o
  generalize es'.find? name = o'
  rintro (_ | _) <;> rfl

/-- Values that are told apart, if at all, only by what lists and mappings hold. -/
inductive SameForm : Value → Value → Prop
  | same (v) : SameForm v v
  | lists (items items') : SameForm (.list items) (.list items')
  | maps (e es e' es') : SameForm (.map (e :: es)) (.map (e' :: es'))

variable (sub : Value → Lowering TypeExpr)

/-- Two values that stand for the same schema, as far as a lowering and the schemas around them can
tell. -/
structure Alike (v v' : Value) : Prop where
  type : Matches (· = ·) (sub v) (sub v')
  form : SameForm v v'
  readOnly : isReadOnly v = isReadOnly v'

variable {sub}

theorem Alike.refl (v : Value) : Alike sub v v := ⟨.refl _, .same v, rfl⟩

theorem eachOf_matches_of_alike {vs vs' : List Value} (h : List.Forall₂ (Alike sub) vs vs') :
    Matches (· = ·) (eachOf sub vs) (eachOf sub vs') :=
  eachOf_matches_eq (h.imp fun _ _ alike => alike.type)

/-! ### Parts of an object -/

theorem lowerMembers_matches {required required' : List Key} {ps ps' : Entries}
    (names : ∀ k, isRequired required k = isRequired required' k)
    (h : Entrywise (fun _ => Alike sub) ps ps') :
    Matches (· = ·) (lowerMembers sub required ps) (lowerMembers sub required' ps') := by
  induction h with
  | nil => exact .refl _
  | @cons k v v' ps ps' alike _ ih =>
    refine Matches.bind (r := (· = ·)) ?_ fun m m' hm => ih.bind fun ms ms' hms => ?_
    · refine (Matches.refl _).bind fun name name' same => ?_
      refine alike.type.bind fun t t' type => .pure ?_
      rw [same, type, names k, alike.readOnly]
    · exact .pure (by rw [hm, hms])

theorem lowerAdditional_matches {v v' : Value} (h : Alike sub v v') :
    Matches (· = ·) (lowerAdditional sub v) (lowerAdditional sub v') := by
  cases h.form with
  | same v => exact .refl _
  | lists items items' => exact .pure rfl
  | maps e es e' es' =>
    exact h.type.bind fun t t' type => .pure (by rw [type])

/-- The keywords that hold the parts of a schema. -/
def partKeywords : List String :=
  ["required", "properties", "additionalProperties", "items", "prefixItems"] ++ compositionKeywords

/-- Two schemas whose parts are lowered alike. Types, references and literal values are not looked
at. -/
structure SameParts (sub : Value → Lowering TypeExpr) (es es' : Entries) : Prop where
  required : Matches (fun ks ks' => ∀ k, isRequired ks k = isRequired ks' k)
    (Report.ofOption (requiredKeys? (es.get "required")) : Lowering _)
    (Report.ofOption (requiredKeys? (es'.get "required")))
  properties : Matches (Entrywise fun _ => Alike sub)
    (Report.ofOption (propertyEntries? (es.get "properties")) : Lowering _)
    (Report.ofOption (propertyEntries? (es'.get "properties")))
  hasProperties : (es.get "properties").truthy = (es'.get "properties").truthy
  additional : Alike sub (es.get "additionalProperties") (es'.get "additionalProperties")
  items : Alike sub (es.get "items") (es'.get "items")
  sequence : List.Forall₂ (Alike sub) (itemsOf (es.get "prefixItems"))
    (itemsOf (es'.get "prefixItems"))
  alternatives : ∀ keyword ∈ compositionKeywords, ∃ chosen,
    SameItems (itemsOf (es.get keyword)) chosen ∧
      List.Forall₂ (Alike sub) chosen (itemsOf (es'.get keyword))
  present : ∀ keyword ∈ partKeywords, es.has keyword = es'.has keyword

variable {es es' : Entries}

theorem SameParts.lowerObject (h : SameParts sub es es') :
    Matches (· = ·) (lowerObject sub es) (lowerObject sub es') := by
  refine h.required.bind fun ks ks' names => h.properties.bind fun ps ps' entries => ?_
  refine (lowerMembers_matches names entries).bind fun ms ms' members => ?_
  refine (lowerAdditional_matches h.additional).bind fun a a' additional => ?_
  subst members additional
  split
  · exact .refl _
  · exact .refl _
  · exact .refl _
  · have form := h.additional.form
    revert form
    generalize es.get "additionalProperties" = v
    generalize es'.get "additionalProperties" = v'
    rintro (_ | _ | _) <;> exact .refl _

/-! ### Arrays -/

theorem lowerArray_eq (es : Entries) : lowerArray sub es =
    match itemsOf (es.get "prefixItems") with
    | first :: rest => do return .tuple (← eachOf sub (first :: rest))
    | [] =>
      match es.get "items" with
      | .null => pure (.array .any)
      | .bool false => pure (.array .any)
      | items => do return .array (← sub items) := by
  rw [lowerArray]
  cases es.get "prefixItems" with
  | list items => cases items <;> rfl
  | _ => rfl

theorem SameParts.lowerArray (h : SameParts sub es es') :
    Matches (· = ·) (lowerArray sub es) (lowerArray sub es') := by
  rw [lowerArray_eq, lowerArray_eq]
  have sequence := h.sequence
  have items := h.items
  revert sequence
  generalize itemsOf (es.get "prefixItems") = vs
  generalize itemsOf (es'.get "prefixItems") = vs'
  intro sequence
  cases sequence with
  | cons first others =>
    exact (eachOf_matches_of_alike (.cons first others)).bind fun ts ts' types =>
      .pure (by rw [types])
  | nil =>
    revert items
    generalize es.get "items" = v
    generalize es'.get "items" = v'
    intro items
    cases items.form with
    | same v => exact .refl _
    | lists vs vs' => exact items.type.bind fun t t' type => .pure (by rw [type])
    | maps e fs e' fs' => exact items.type.bind fun t t' type => .pure (by rw [type])

theorem SameParts.lowerSingle (h : SameParts sub es es') (type : String) :
    Matches (· = ·) (lowerSingle sub es type) (lowerSingle sub es' type) := by
  unfold Schema.lowerSingle
  split
  · exact .refl _
  · split
    · exact h.lowerArray
    · split
      · exact h.lowerObject
      · exact .refl _

/-! ### Combinations -/

/-- The type of a combination's own properties, where it has any. -/
def ownPart (sub : Value → Lowering TypeExpr) (es : Entries) : Lowering (List TypeExpr) :=
  if (es.get "properties").truthy || (es.get "additionalProperties").isMap then
    List.singleton <$> Schema.lowerObject sub es
  else pure []

/-- The type of the parts of a combination together. -/
def combined (sub : Value → Lowering TypeExpr) (es : Entries) : Lowering TypeExpr := do
  let parts ← eachOf (lowerKeyword sub es) compositionKeywords
  let own ← ownPart sub es
  return if (parts.flatten ++ own).isEmpty then .any else .interOf (parts.flatten ++ own)

theorem lowerComposition_eq (es : Entries) : lowerComposition sub es = do
    let type ← combined sub es
    let types ← Report.ofText (typesOf es)
    return if types.contains "null" then .unionOf [type, .null] else type := by
  unfold lowerComposition combined ownPart
  by_cases own : (es.get "properties").truthy || (es.get "additionalProperties").isMap <;>
    simp [own]

theorem lowerKeyword_eq (es : Entries) (keyword : String) : lowerKeyword sub es keyword =
    match itemsOf (es.get keyword) with
    | [] => pure []
    | first :: rest => do
      let types ← eachOf sub (first :: rest)
      return [if keyword = "allOf" then .interOf types else .unionOf types] := by
  rw [lowerKeyword]
  cases es.get keyword with
  | list items => cases items <;> rfl
  | _ => rfl

theorem SameParts.lowerKeyword (h : SameParts sub es es') {keyword : String}
    (mem : keyword ∈ compositionKeywords) :
    Matches (· = ·) (lowerKeyword sub es keyword) (lowerKeyword sub es' keyword) := by
  obtain ⟨chosen, same, alike⟩ := h.alternatives keyword mem
  have types : Matches SameItems (eachOf sub (itemsOf (es.get keyword)))
      (eachOf sub (itemsOf (es'.get keyword))) :=
    (eachOf_matches_sameItems sub same).trans (eachOf_matches_of_alike alike)
      fun ts us vs h eq => eq ▸ h
  have empty : itemsOf (es.get keyword) = [] ↔ itemsOf (es'.get keyword) = [] := by
    rw [same.eq_nil_iff, ← List.length_eq_zero_iff, alike.length_eq, List.length_eq_zero_iff]
  rw [lowerKeyword_eq, lowerKeyword_eq]
  split
  · next none =>
    rw [empty.1 none]
    exact .refl _
  · next first rest some =>
    cases some' : itemsOf (es'.get keyword) with
    | nil => rw [empty.2 some'] at some; cases some
    | cons first' rest' =>
      rw [some, some'] at types
      refine types.bind fun ts ts' same => .pure ?_
      rw [TypeExpr.interOf_eq_of_mem_iff same, TypeExpr.unionOf_eq_of_mem_iff same]

theorem SameParts.isMap_additional (h : SameParts sub es es') :
    (es.get "additionalProperties").isMap = (es'.get "additionalProperties").isMap := by
  have form := h.additional.form
  revert form
  generalize es.get "additionalProperties" = v
  generalize es'.get "additionalProperties" = v'
  rintro (_ | _ | _) <;> rfl

theorem SameParts.combined (h : SameParts sub es es') :
    Matches (· = ·) (combined sub es) (combined sub es') := by
  refine (eachOf_matches_eq ?_).bind fun parts parts' same => ?_
  · exact List.forall₂_same.2 fun keyword mem => h.lowerKeyword mem
  · refine Matches.bind (r := (· = ·)) ?_ fun own own' eq => .pure (by rw [same, eq])
    unfold ownPart
    rw [h.hasProperties, h.isMap_additional]
    split
    · exact h.lowerObject.map fun t t' eq => by rw [eq]
    · exact .refl _

/-! ### Whole schemas -/

/-- The values that a schema lists: that of `const`, or else those of `enum`. -/
def literalsOf (es : Entries) : List Value :=
  match es.find? "const" with
  | some v => [v]
  | none => itemsOf (es.get "enum")

/-- Two schemas that lowering cannot tell apart, but for `nullable`. -/
structure SameSchema (sub : Value → Lowering TypeExpr) (es es' : Entries) : Prop
    extends SameParts sub es es' where
  ref : (es.get "$ref").str? = (es'.get "$ref").str?
  literals : SameItems (literalsOf es) (literalsOf es')
  types : Matches SameItems (Report.ofText (typesOf es) : Lowering _) (Report.ofText (typesOf es'))

theorem SameParts.isComposed (h : SameParts sub es es') : isComposed es = isComposed es' := by
  have present : ∀ keyword ∈ compositionKeywords, es.has keyword = es'.has keyword :=
    fun keyword mem => h.present keyword (List.mem_append_right _ mem)
  rw [Bool.eq_iff_iff, Schema.isComposed, Schema.isComposed, List.any_eq_true, List.any_eq_true]
  exact exists_congr fun keyword => and_congr_right fun mem => by rw [present keyword mem]

theorem SameParts.impliedTypes (h : SameParts sub es es')
    (types : Matches SameItems (Report.ofText (typesOf es) : Lowering _)
      (Report.ofText (typesOf es'))) :
    Matches SameItems (Report.ofText (impliedTypes es) : Lowering _)
      (Report.ofText (impliedTypes es')) := by
  rw [Schema.impliedTypes, Schema.impliedTypes, Report.ofText_bind, Report.ofText_bind]
  refine types.bind fun ts ts' same => ?_
  cases ts with
  | nil =>
    rw [same.eq_nil_iff.1 rfl, h.present "properties" (by decide),
      h.present "additionalProperties" (by decide), h.present "items" (by decide),
      h.present "prefixItems" (by decide)]
    exact .of_eq SameItems.refl rfl
  | cons t rest =>
    cases ts' with
    | nil => cases same.eq_nil_iff.2 rfl
    | cons t' rest' => exact .pure same

/-- The type of a list of values. -/
def lowerLiterals (vs : List Value) : Lowering TypeExpr := do
  return .unionOf (← eachOf lowerLiteral vs)

theorem lowerLiterals_singleton (v : Value) : lowerLiterals [v] = lowerLiteral v := by
  have alone : lowerLiterals [v] = lowerLiteral v >>= fun t => pure (TypeExpr.unionOf [t]) := by
    simp [lowerLiterals, eachOf]
  have literal : ∀ text, TypeExpr.unionOf [.literal text] = .literal text :=
    fun text => TypeExpr.unionOf_singleton rfl
  rw [alone]
  cases v with
  | null => rfl
  | _ => simp [lowerLiteral, literal]

/-- The type of a list of values does not depend on their order, or on how often each is there. -/
theorem lowerLiterals_matches {vs vs' : List Value} (h : SameItems vs vs') :
    Matches (· = ·) (lowerLiterals vs) (lowerLiterals vs') :=
  (eachOf_matches_sameItems lowerLiteral h).bind fun _ _ same =>
    .pure (TypeExpr.unionOf_eq_of_mem_iff same)

/-- The type of a schema that neither refers to another nor lists values. -/
def lowerOpen (sub : Value → Lowering TypeExpr) (es : Entries) : Lowering TypeExpr :=
  if isComposed es then lowerComposition sub es
  else do
    match ← Report.ofText (impliedTypes es) with
    | [] => pure .any
    | types => do return .unionOf (← eachOf (lowerSingle sub es) types)

/-- The type of a schema that does not refer to another. -/
def lowerUnreferred (sub : Value → Lowering TypeExpr) (es : Entries) : Lowering TypeExpr :=
  match literalsOf es with
  | [] => lowerOpen sub es
  | values => lowerLiterals values

theorem lowerUnreferred_eq (es : Entries) : lowerUnreferred sub es =
    match es.find? "const" with
    | some value => lowerLiteral value
    | none =>
      match es.get "enum" with
      | .list (first :: rest) => do return .unionOf (← eachOf lowerLiteral (first :: rest))
      | _ => lowerOpen sub es := by
  rw [lowerUnreferred, literalsOf]
  cases es.find? "const" with
  | some value => exact lowerLiterals_singleton value
  | none =>
    cases es.get "enum" with
    | list values => cases values <;> rfl
    | _ => rfl

theorem lowerEntries_eq (scope : Scope) (es : Entries) : lowerEntries sub scope es =
    match (es.get "$ref").str? with
    | some ref => lowerReference scope ref
    | none => lowerUnreferred sub es := by
  rw [lowerUnreferred_eq, lowerEntries]
  cases es.get "$ref" <;> rfl

theorem SameParts.lowerOpen (h : SameParts sub es es')
    (types : Matches SameItems (Report.ofText (typesOf es) : Lowering _)
      (Report.ofText (typesOf es'))) :
    Matches (· = ·) (lowerOpen sub es) (lowerOpen sub es') := by
  unfold Schema.lowerOpen
  rw [h.isComposed]
  split
  · rw [lowerComposition_eq, lowerComposition_eq]
    refine h.combined.bind fun t t' eq => types.bind fun ts ts' same => .pure ?_
    have null : ts.contains "null" = ts'.contains "null" := by
      rw [Bool.eq_iff_iff, List.contains_iff_mem, List.contains_iff_mem, same]
    rw [null, eq]
  · refine (h.impliedTypes types).bind fun ts ts' same => ?_
    cases ts with
    | nil =>
      rw [same.eq_nil_iff.1 rfl]
      exact .refl _
    | cons t rest =>
      cases ts' with
      | nil => cases same.eq_nil_iff.2 rfl
      | cons t' rest' =>
        have each := (eachOf_matches_sameItems (Schema.lowerSingle sub es) same).trans
          (eachOf_matches_eq (List.forall₂_same.2 fun type _ => h.lowerSingle type))
          fun us vs ws h eq => eq ▸ h
        exact each.bind fun us us' same => .pure (TypeExpr.unionOf_eq_of_mem_iff same)

/-- **Schemas that differ in nothing that lowering tells apart have the same type.** -/
theorem SameSchema.lowerEntries (h : SameSchema sub es es') (scope : Scope) :
    Matches (· = ·) (lowerEntries sub scope es) (lowerEntries sub scope es') := by
  rw [lowerEntries_eq, lowerEntries_eq, h.ref]
  split
  · exact .refl _
  · rw [lowerUnreferred, lowerUnreferred]
    have literals := h.literals
    revert literals
    generalize literalsOf es = vs
    generalize literalsOf es' = vs'
    intro literals
    cases vs with
    | nil =>
      rw [literals.eq_nil_iff.1 rfl]
      exact h.toSameParts.lowerOpen h.types
    | cons v rest =>
      cases vs' with
      | nil => cases literals.eq_nil_iff.2 rfl
      | cons v' rest' => exact lowerLiterals_matches literals

/-- Whether two schemas have the same type, or neither has one. -/
def SameType (scope : Scope) (v v' : Value) : Prop :=
  ∀ t, (lower scope v).result = .ok t ↔ (lower scope v').result = .ok t

end ClientGen.Schema
