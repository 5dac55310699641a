import ClientGen.Proofs.Document.Unplaced

/-!
# Parts of documents that are read alike

Two mappings whose entries are related under each key hold related values under each name
(`Maps.get`), and are read alike if each entry is (`readEntries_matches`). What is read from one
value is the same wherever the value stands: the content of a body, a parameter, the servers and the
security schemes (`readContent_matches`, `unplaced_parameterAt`, `readServers_matches`,
`readSecuritySchemes_matches`).
-/

namespace ClientGen.Document

open Report (Matches)
open Schema (Entrywise)

/-! ### Related mappings -/

/-- Two spots of mappings that are related. -/
def Maps (C : Entries → Entries → Prop) (x y : Spot) : Prop :=
  ∃ es es', x.value = .map es ∧ y.value = .map es' ∧ C es es'

/-- Entries under the same keys with values that are related, or one value that is no mapping. -/
inductive Mapwise (R : Key → Value → Value → Prop) : Value → Value → Prop
  | maps {es es' : Entries} : Entrywise R es es' → Mapwise R (.map es) (.map es')
  | other {v} : v.isMap = false → Mapwise R v v

section Related

variable {R : Key → Value → Value → Prop} {x y : Spot} {v v' : Value}

theorem Mapwise.refl (refl : ∀ k v, R k v v) (v : Value) : Mapwise R v v := by
  cases v with
  | map es => exact .maps (.refl refl es)
  | _ => exact .other rfl

theorem Mapwise.truthy_eq (h : Mapwise R v v') : v.truthy = v'.truthy := by
  cases h with
  | maps related => cases related <;> rfl
  | other _ => rfl

theorem Mapwise.isMap_eq (h : Mapwise R v v') : v.isMap = v'.isMap := by
  cases h <;> rfl

/-- What stands under a name in two mappings whose entries are related. -/
theorem Maps.get {root root' : Value} (h : Maps (Entrywise R) x y) {name : String}
    {P : Value → Value → Prop} (here : ∀ v v', R (.str name) v v' → P v v')
    (missing : P .null .null) :
    P ((treeOf root).get x name).value ((treeOf root').get y name).value := by
  obtain ⟨es, es', left, right, related⟩ := h
  rw [get_treeOf, get_treeOf, left, right]
  change P ((Entries.find? name es).getD .null) ((Entries.find? name es').getD .null)
  have found := related.find? name
  revert found
  generalize Entries.find? name es = v
  generalize Entries.find? name es' = v'
  rintro (related | _)
  · exact here _ _ related
  · exact missing

theorem mappingOrNone_matches (h : Mapwise R x.value y.value) :
    Matches (Maps (Entrywise R)) (mappingOrNone x) (mappingOrNone y) := by
  rw [mappingOrNone, mappingOrNone, h.truthy_eq]
  split
  · rw [mapping, mapping, h.isMap_eq]
    split
    · next mapped =>
      generalize left : x.value = v at h
      generalize right : y.value = v' at h mapped
      cases h with
      | maps related => exact .pure ⟨_, _, left, right, related⟩
      | other noMap =>
        rw [noMap] at mapped
        cases mapped
    · exact .of_failures rfl rfl
  · exact .pure ⟨[], [], rfl, rfl, .nil⟩

/-- The entries of two mappings, read one by one. -/
theorem readEntries_matches {root root' : Value} {γ δ : Type} {f : Key × Spot → Reading γ}
    {g : Key × Spot → Reading δ} {r : γ → δ → Prop} (h : Maps (Entrywise R) x y)
    (each : ∀ k z z', R k z.value z'.value → Matches r (f (k, z)) (g (k, z'))) :
    Matches (List.Forall₂ r) (readEach f ((treeOf root).entries x))
      (readEach g ((treeOf root').entries y)) := by
  obtain ⟨es, es', left, right, related⟩ := h
  refine readEach_matches ((entries_related left right related).imp fun e e' h => ?_)
  obtain ⟨k, z⟩ := e
  obtain ⟨k', z'⟩ := e'
  obtain ⟨rfl, related⟩ := h
  exact each k z z' related

theorem Maps.whole_find? (h : Maps (Entrywise R) x y) (root root' : Value) {name : String}
    (same : ∀ v v', R (.str name) v v' → v = v') :
    ((treeOf root).find? x name).map (treeOf root).whole =
      ((treeOf root').find? y name).map (treeOf root').whole := by
  obtain ⟨es, es', left, right, related⟩ := h
  have value := find?_treeOf root x name
  have value' := find?_treeOf root' y name
  rw [left] at value
  rw [right] at value'
  refine (value.trans ?_).trans value'.symm
  change Entries.find? name es = Entries.find? name es'
  have found := related.find? name
  revert found
  generalize Entries.find? name es = v
  generalize Entries.find? name es' = v'
  rintro (related | _)
  · exact congrArg some (same _ _ related)
  · rfl

end Related

/-! ### Parts with one value -/

/-- Two spots with one value. -/
def SameValue (x y : Spot) : Prop := x.value = y.value

section Same

variable {root root' : Value} {x y : Spot}

/-- What stands under a name in two mappings that keep what stands there. -/
theorem Maps.sameValue_get {R : Key → Value → Value → Prop} (h : Maps (Entrywise R) x y)
    {name : String} (kept : ∀ v v', R (.str name) v v' → v = v') :
    SameValue ((treeOf root).get x name) ((treeOf root').get y name) := h.get kept rfl

theorem SameValue.get (same : SameValue x y) (root root' : Value) (name : String) :
    SameValue ((treeOf root).get x name) ((treeOf root').get y name) := by
  rw [SameValue, get_treeOf, get_treeOf, same]

theorem SameValue.valueOf_eq (same : SameValue x y) (root root' : Value) (name : String) :
    (treeOf root).valueOf x name = (treeOf root').valueOf y name := same.get root root' name

theorem SameValue.find? (same : SameValue x y) (root root' : Value) (name : String) :
    Option.Rel SameValue ((treeOf root).find? x name) ((treeOf root').find? y name) := by
  have left := find?_treeOf root x name
  rw [same, ← find?_treeOf root' y name] at left
  revert left
  generalize (treeOf root).find? x name = a
  generalize (treeOf root').find? y name = b
  cases a <;> cases b <;> intro left
  · exact .none
  · cases left
  · cases left
  · exact .some (Option.some.inj left)

theorem SameValue.whole_find? (same : SameValue x y) (root root' : Value) (name : String) :
    ((treeOf root).find? x name).map (treeOf root).whole =
      ((treeOf root').find? y name).map (treeOf root').whole := by
  have left := find?_treeOf root x name
  rw [same, ← find?_treeOf root' y name] at left
  exact left

theorem SameValue.unplaced_eq (same : SameValue x y) : x.unplaced = y.unplaced := by
  rw [Spot.unplaced, Spot.unplaced, same]

theorem listed?_self (v : Value) : Option.Rel (List.Forall₂ (· = ·)) v.listed? v.listed? := by
  cases v.listed? with
  | none => exact .none
  | some vs => exact .some (List.forall₂_refl vs)

theorem SameValue.listed? (same : SameValue x y) :
    Option.Rel (List.Forall₂ SameValue) ((treeOf root).listed? x) ((treeOf root').listed? y) := by
  exact listed?_related (same ▸ listed?_self y.value)

theorem SameValue.mappingOrNone (same : SameValue x y) :
    Matches (Maps (Entrywise fun _ => (· = ·))) (mappingOrNone x) (mappingOrNone y) := by
  refine mappingOrNone_matches ?_
  rw [same]
  exact .refl (fun _ _ => rfl) _

theorem Maps.sameValue (h : Maps (· = ·) x y) : SameValue x y := by
  obtain ⟨es, _, left, right, rfl⟩ := h
  exact left.trans right.symm

theorem listedOrNone_matches {R : Value → Value → Prop}
    (truthy : x.value.truthy = y.value.truthy)
    (items : Option.Rel (List.Forall₂ R) x.value.listed? y.value.listed?) :
    Matches (List.Forall₂ fun a b => R a.value b.value) (listedOrNone (treeOf root) x)
      (listedOrNone (treeOf root') y) := by
  rw [listedOrNone, listedOrNone, truthy]
  split
  · exact .ofOption (listed?_related items)
  · exact .pure .nil

theorem SameValue.listedOrNone (same : SameValue x y) :
    Matches (List.Forall₂ SameValue) (listedOrNone (treeOf root) x)
      (listedOrNone (treeOf root') y) := by
  exact listedOrNone_matches (congrArg Value.truthy same) (same ▸ listed?_self y.value)

theorem map_whole_eq {as bs : List Spot} (h : List.Forall₂ SameValue as bs) :
    as.map (treeOf root).whole = bs.map (treeOf root').whole :=
  map_eq_of_forall₂ (f := Spot.value) h

/-- The content of a body depends on the value that it is read from. -/
theorem readContent_matches (same : SameValue x y) :
    Matches (fun c c' => Content.unplaced c = Content.unplaced c')
      (readContent (treeOf root) x) (readContent (treeOf root') y) := by
  refine same.mappingOrNone.bind fun a b h => ?_
  refine (readEntries_matches (r := fun p q => (p.1, p.2.unplaced) = (q.1, q.2.unplaced)) h
    fun k z z' same => ?_).bind fun ps qs h => .pure ?_
  · refine (Matches.refl (shownKey k)).bind fun name name' h => ?_
    subst h
    refine (SameValue.mappingOrNone same).bind fun m m' h => .pure ?_
    exact congrArg (Prod.mk name)
      (SameValue.unplaced_eq (h.sameValue_get fun _ _ same => same))
  · rw [Content.unplaced, Content.unplaced, byText_map, byText_map, map_eq_of_forall₂ h]

/-- The parameter that a mapping describes, with its name and location. -/
def parameterAt (source : Shared) (x : Spot) (name : String) (location : Key) : Parameter where
  name
  location
  isRequired := match source.find? x "required" with
    | some flag => flag.value.truthy
    | none => location == .str "path"
  description := source.valueOf x "description"
  spot := source.written (source.get x "schema")
  isDeprecated := (source.get x "deprecated").value.truthy

/-- A parameter depends on the value of its mapping. -/
theorem unplaced_parameterAt (same : SameValue x y) (name : String) (location : Key) :
    (parameterAt (treeOf root) x name location).unplaced =
      (parameterAt (treeOf root') y name location).unplaced := by
  have required : (parameterAt (treeOf root) x name location).isRequired =
      (parameterAt (treeOf root') y name location).isRequired := by
    have found := same.find? root root' "required"
    rw [parameterAt, parameterAt]
    revert found
    generalize (treeOf root).find? x "required" = a
    generalize (treeOf root').find? y "required" = b
    rintro (same | _)
    · exact congrArg Value.truthy same
    · rfl
  have schema : (parameterAt (treeOf root) x name location).spot.unplaced =
      (parameterAt (treeOf root') y name location).spot.unplaced :=
    SameValue.unplaced_eq (same.get root root' "schema")
  have deprecated : (parameterAt (treeOf root) x name location).isDeprecated =
      (parameterAt (treeOf root') y name location).isDeprecated :=
    congrArg Value.truthy (same.get root root' "deprecated")
  have description : (parameterAt (treeOf root) x name location).description =
      (parameterAt (treeOf root') y name location).description :=
    same.valueOf_eq root root' "description"
  rw [Parameter.unplaced, Parameter.unplaced, required, schema, deprecated, description]
  rfl

theorem readTags_matches {as bs : List Spot} (h : List.Forall₂ SameValue as bs) :
    Matches (· = ·) (readEach (fun a => shown ((treeOf root).whole a)) as)
      (readEach (fun b => shown ((treeOf root').whole b)) bs) := by
  refine (readEach_matches (r := (· = ·)) (h.imp fun a b same => ?_)).mono fun ss ss' h => ?_
  · change Matches _ (shown a.value) (shown b.value)
    rw [same]
    exact .refl _
  · rwa [List.forall₂_eq_eq_eq] at h

/-- The security requirements of an operation, where it has its own. -/
def readSecurity (source : Shared) (x : Spot) : Reading (Option (List Spot)) :=
  match x.value with
  | .null => pure none
  | _ => some <$> listed source x

theorem readSecurity_matches (same : SameValue x y) :
    Matches (fun s s' => (s.map fun ys => ys.map (treeOf root).whole) =
        s'.map fun ys => ys.map (treeOf root').whole)
      (readSecurity (treeOf root) x) (readSecurity (treeOf root') y) := by
  have listed : Matches (List.Forall₂ SameValue) (listed (treeOf root) x)
      (listed (treeOf root') y) := .ofOption same.listed?
  rw [readSecurity, readSecurity, same]
  split
  · exact .pure rfl
  · exact listed.map fun as bs h => congrArg some (map_whole_eq h)

theorem readServers_matches {as bs : List Spot} (h : List.Forall₂ SameValue as bs) :
    Matches (· = ·) (readServers (treeOf root) as) (readServers (treeOf root') bs) := by
  have mappings : List.Forall₂ SameValue (as.filter fun a => a.value.isMap)
      (bs.filter fun b => b.value.isMap) :=
    List.rel_filter (fun a b same => iff_of_eq (congrArg (fun v : Value => v.isMap = true) same)) h
  refine (readEach_matches (r := (· = ·)) (mappings.imp fun a b same => ?_)).mono fun ss ss' h => ?_
  · rw [same.whole_find? root root' "url", same.valueOf_eq root root' "description"]
    exact .refl _
  · rwa [List.forall₂_eq_eq_eq] at h

theorem readPair_matches (index : Nat) (same : SameValue x y) :
    Matches (· = ·) (readPair (treeOf root) index x) (readPair (treeOf root') index y) := by
  have parts : Matches (List.Forall₂ SameValue) (listed (treeOf root) x)
      (listed (treeOf root') y) := .ofOption same.listed?
  refine parts.bind fun as bs h => ?_
  rcases h with _ | ⟨first, _ | ⟨second, _ | ⟨_, _⟩⟩⟩
  · exact .of_failures rfl rfl
  · exact .of_failures rfl rfl
  · rw [SameValue] at first second
    change Matches _ (Report.ofOption _ >>= fun k => pure (k, (_ : Spot).value))
      (Report.ofOption _ >>= fun k => pure (k, (_ : Spot).value))
    rw [first, second]
    exact .refl _
  · exact .of_failures rfl rfl

theorem numbered_related {as bs : List Spot} (h : List.Forall₂ SameValue as bs) (n : Nat) :
    List.Forall₂ (fun a b => a.1 = b.1 ∧ SameValue a.2 b.2) (numbered n as) (numbered n bs) := by
  induction h generalizing n with
  | nil => exact .nil
  | cons first _ ih => exact .cons ⟨rfl, first⟩ (ih (n + 1))

theorem readSecuritySchemes_matches (same : SameValue x y) :
    Matches (· = ·) (readSecuritySchemes (treeOf root) x)
      (readSecuritySchemes (treeOf root') y) := by
  rw [readSecuritySchemes, readSecuritySchemes, same]
  split
  · exact .pure rfl
  split
  · next mapped =>
    have maps : Maps (Entrywise fun _ => (· = ·)) x y := by
      cases value : y.value with
      | map es => exact ⟨es, es, same.trans value, value, .refl (fun _ _ => rfl) es⟩
      | _ =>
        rw [value] at mapped
        cases mapped
    obtain ⟨es, es', left, right, related⟩ := maps
    have entries : List.Forall₂ (fun e e' => (e.1, e.2.value) = (e'.1, e'.2.value))
        ((treeOf root).entries x) ((treeOf root').entries y) :=
      (entries_related left right related).imp fun e e' h => Prod.ext h.1 h.2
    exact .pure (map_eq_of_forall₂ entries)
  · have items : Matches (List.Forall₂ SameValue) (listed (treeOf root) x)
        (listed (treeOf root') y) := .ofOption same.listed?
    refine items.bind fun as bs h => ?_
    refine (readEach_matches (r := (· = ·)) ((numbered_related h 0).imp fun a b h => ?_)).bind
      fun ps ps' h => .pure ?_
    · obtain ⟨n, z⟩ := a
      obtain ⟨n', z'⟩ := b
      obtain ⟨rfl, same⟩ := h
      exact readPair_matches n same
    · rw [List.forall₂_eq_eq_eq] at h
      rw [h]

end Same

end ClientGen.Document
