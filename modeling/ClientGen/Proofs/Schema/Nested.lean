import ClientGen.Schema.Basic

/-!
# The schemas in a schema

Lowering goes from a schema to the schemas under some of its keywords (`roleOf`), and so to all
that are nested in it (`schemasIn`). What holds of all of them holds of the schemas under each
keyword (`Throughout.get_schema`, `Throughout.get_items`, `Throughout.get_named`) and of what is
nested in one of them (`Throughout.of_mem`).
-/

namespace ClientGen.Schema

/-! ### Keywords -/

/-- What the value of a keyword is for a schema. -/
inductive Role where
  | schema
  /-- Schemas whose order counts. -/
  | sequence
  /-- Schemas whose order does not count. -/
  | alternatives
  /-- Values or names whose order does not count. -/
  | choices
  /-- Schemas under names. -/
  | named
  /-- Something else that is read. -/
  | fixed
  | unread

/-- The role of the value under a key. -/
def roleOf : Key → Role
  | .str "items" => .schema
  | .str "additionalProperties" => .schema
  | .str "prefixItems" => .sequence
  | .str "oneOf" => .alternatives
  | .str "anyOf" => .alternatives
  | .str "allOf" => .alternatives
  | .str "enum" => .choices
  | .str "type" => .choices
  | .str "required" => .choices
  | .str "properties" => .named
  | .str "$ref" => .fixed
  | .str "const" => .fixed
  | .str "nullable" => .fixed
  | .str "readOnly" => .fixed
  | _ => .unread

theorem roleOf_alternatives {keyword : String} (mem : keyword ∈ compositionKeywords) :
    roleOf (.str keyword) = .alternatives := by
  simp only [compositionKeywords, List.mem_cons, List.not_mem_nil, or_false] at mem
  rcases mem with rfl | rfl | rfl <;> rfl

/-- The items of a list; other values have none. -/
def itemsOf (v : Value) : List Value := v.list?.getD []

/-! ### Nested schemas -/

mutual

/-- The schemas in a schema, itself included, as far as lowering looks into them. -/
def schemasIn : Value → List Entries
  | .map es => es :: schemasUnder es
  | _ => []

/-- The schemas in the items of a list. -/
def schemasInItems : List Value → List Entries
  | [] => []
  | v :: rest => schemasIn v ++ schemasInItems rest

/-- The schemas in the values of a mapping. -/
def schemasInMembers : List (Key × Value) → List Entries
  | [] => []
  | (_, v) :: rest => schemasIn v ++ schemasInMembers rest

/-- The schemas under the keywords of a schema. -/
def schemasUnder : List (Key × Value) → List Entries
  | [] => []
  | (k, v) :: rest =>
    (match roleOf k, v with
      | .schema, v => schemasIn v
      | .sequence, .list items => schemasInItems items
      | .alternatives, .list items => schemasInItems items
      | .named, .map ps => schemasInMembers ps
      | _, _ => []) ++ schemasUnder rest

end

/-- The schemas in the value of a keyword. -/
def schemasAt (role : Role) (v : Value) : List Entries :=
  match role, v with
  | .schema, v => schemasIn v
  | .sequence, .list items => schemasInItems items
  | .alternatives, .list items => schemasInItems items
  | .named, .map ps => schemasInMembers ps
  | _, _ => []

theorem schemasUnder_cons (k : Key) (v : Value) (rest : Entries) :
    schemasUnder ((k, v) :: rest) = schemasAt (roleOf k) v ++ schemasUnder rest := by
  rw [schemasUnder.eq_def]
  rfl

theorem mem_schemasInItems {es : Entries} {items : List Value} :
    es ∈ schemasInItems items ↔ ∃ v ∈ items, es ∈ schemasIn v := by
  induction items with
  | nil => simp [schemasInItems]
  | cons v rest ih => simp [schemasInItems, ih]

theorem mem_schemasInMembers {es : Entries} {ps : Entries} :
    es ∈ schemasInMembers ps ↔ ∃ p ∈ ps, es ∈ schemasIn p.2 := by
  induction ps with
  | nil => simp [schemasInMembers]
  | cons p rest ih => simp [schemasInMembers, ih]

theorem mem_schemasUnder_of_get {es fs : Entries} {name : String}
    (h : es ∈ schemasAt (roleOf (.str name)) (fs.get name)) : es ∈ schemasUnder fs := by
  induction fs with
  | nil =>
    rw [Entries.get, Entries.find?, Option.getD_none] at h
    cases role : roleOf (.str name) <;> rw [role] at h <;> cases h
  | cons e rest ih =>
    obtain ⟨k, v⟩ := e
    rw [schemasUnder_cons, List.mem_append]
    rw [Entries.get, Entries.find?] at h
    split at h
    · next key => exact .inl (key ▸ h)
    · exact .inr (ih h)

mutual

/-- What is nested in a schema in a schema is nested in that schema too. -/
theorem schemasIn_trans {es fs : Entries} : ∀ {v : Value}, es ∈ schemasIn v →
    fs ∈ schemasIn (.map es) → fs ∈ schemasIn v
  | .map gs, outer, inner => by
    rw [schemasIn, List.mem_cons] at outer
    rcases outer with rfl | outer
    · exact inner
    · rw [schemasIn]
      exact List.mem_cons_of_mem _ (schemasUnder_trans outer inner)

theorem schemasInItems_trans {es fs : Entries} : ∀ {items : List Value},
    es ∈ schemasInItems items → fs ∈ schemasIn (.map es) → fs ∈ schemasInItems items
  | v :: rest, outer, inner => by
    rw [schemasInItems, List.mem_append] at outer ⊢
    exact outer.imp (schemasIn_trans · inner) (schemasInItems_trans · inner)

theorem schemasInMembers_trans {es fs : Entries} : ∀ {ps : Entries},
    es ∈ schemasInMembers ps → fs ∈ schemasIn (.map es) → fs ∈ schemasInMembers ps
  | (_, v) :: rest, outer, inner => by
    rw [schemasInMembers, List.mem_append] at outer ⊢
    exact outer.imp (schemasIn_trans · inner) (schemasInMembers_trans · inner)

theorem schemasUnder_trans {es fs : Entries} : ∀ {gs : Entries},
    es ∈ schemasUnder gs → fs ∈ schemasIn (.map es) → fs ∈ schemasUnder gs
  | (k, v) :: rest, outer, inner => by
    rw [schemasUnder_cons, List.mem_append] at outer ⊢
    refine outer.imp (fun here => ?_) (schemasUnder_trans · inner)
    match roleOf k, v, here with
    | .schema, v, here => exact schemasIn_trans here inner
    | .sequence, .list items, here => exact schemasInItems_trans here inner
    | .alternatives, .list items, here => exact schemasInItems_trans here inner
    | .named, .map ps, here => exact schemasInMembers_trans here inner

end

/-! ### What holds of all nested schemas -/

/-- Whether something holds of every schema in a schema. -/
def Throughout (P : Entries → Prop) (v : Value) : Prop := ∀ es ∈ schemasIn v, P es

section Throughout

variable {P : Entries → Prop}

theorem Throughout.of_mem {v : Value} (h : Throughout P v) {es : Entries} (mem : es ∈ schemasIn v) :
    Throughout P (.map es) :=
  fun fs inner => h fs (schemasIn_trans mem inner)

variable {es : Entries} (h : Throughout P (.map es))

include h

theorem Throughout.here : P es := h es (by rw [schemasIn]; exact List.mem_cons_self)

theorem Throughout.under {fs : Entries} (name : String)
    (mem : fs ∈ schemasAt (roleOf (.str name)) (es.get name)) : P fs := by
  refine h fs ?_
  rw [schemasIn]
  exact List.mem_cons_of_mem _ (mem_schemasUnder_of_get mem)

theorem Throughout.get_schema {name : String} (role : roleOf (.str name) = .schema) :
    Throughout P (es.get name) := by
  intro fs mem
  refine h.under name ?_
  rw [role]
  exact mem

theorem Throughout.get_items {name : String}
    (role : roleOf (.str name) = .sequence ∨ roleOf (.str name) = .alternatives) :
    ∀ v ∈ itemsOf (es.get name), Throughout P v := by
  intro v item fs mem
  refine h.under name ?_
  cases listed : es.get name with
  | list items =>
    rw [listed] at item
    have nested : fs ∈ schemasInItems items := mem_schemasInItems.2 ⟨v, item, mem⟩
    rcases role with role | role <;> rw [role] <;> exact nested
  | _ =>
    rw [listed] at item
    cases item

theorem Throughout.get_named {name : String} (role : roleOf (.str name) = .named) {ps : Entries}
    (members : es.get name = .map ps) : ∀ p ∈ ps, Throughout P p.2 := by
  intro p member fs mem
  refine h.under name ?_
  rw [role, members]
  exact mem_schemasInMembers.2 ⟨p, member, mem⟩

end Throughout

end ClientGen.Schema
