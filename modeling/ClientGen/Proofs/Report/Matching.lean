import ClientGen.Report.Basic

/-!
# Reports that match

Two steps match when both end in values, and the values are related, or both fail. Which failure it
is and what was noted on the way is left open. Steps that are put together from matching steps match
(`Matches.bind`), and steps that match by equality give the same values (`matches_eq_iff`).

`Yields P x` says of one step `x` that it ends in a value that satisfies `P`, if it ends in a value
at all. Steps that are put together yield what their parts are made for (`Yields.bind`).
-/

namespace ClientGen.Report

variable {ν α β γ δ : Type}

/-- A step and the step for its value end in a value if both do. -/
theorem bind_result_eq_ok_iff {x : Report ν α} {f : α → Report ν β} {b : β} :
    (x >>= f).result = .ok b ↔ ∃ a, x.result = .ok a ∧ (f a).result = .ok b := by
  change (andThen x f).result = .ok b ↔ _
  rw [andThen]
  cases x.result with
  | error e => simp
  | ok a => simp

theorem bind_pure_result_eq_ok_iff {x : Report ν α} {f : α → β} {b : β} :
    (x >>= fun a => pure (f a)).result = .ok b ↔ ∃ a, x.result = .ok a ∧ b = f a := by
  rw [bind_result_eq_ok_iff]
  refine exists_congr fun a => and_congr_right' ?_
  exact ⟨fun ended => (Except.ok.inj ended).symm, fun same => congrArg Except.ok same.symm⟩

/-- A step for the value that a first one ended in. -/
theorem bind_result_of_ok {x : Report ν α} {f : α → Report ν β} {a : α} (ended : x.result = .ok a) :
    (x >>= f).result = (f a).result := by
  change (andThen x f).result = _
  rw [andThen, ended]

/-- The notes of a step and then those of the step for its value. -/
theorem bind_notes_of_ok {x : Report ν α} {f : α → Report ν β} {a : α} (ended : x.result = .ok a) :
    (x >>= f).notes = x.notes ++ (f a).notes := by
  change (andThen x f).notes = _
  rw [andThen, ended]

theorem bind_result_of_error {x : Report ν α} {f : α → Report ν β} {e : Failure}
    (ended : x.result = .error e) : (x >>= f).result = .error e := by
  change (andThen x f).result = _
  rw [andThen, ended]

/-- Steps that end alike, each followed by steps that end alike for every value. -/
theorem bind_result_congr {x y : Report ν α} {f g : α → Report ν β} (first : x.result = y.result)
    (next : ∀ a, (f a).result = (g a).result) : (x >>= f).result = (y >>= g).result := by
  change (andThen x f).result = (andThen y g).result
  rw [andThen, andThen, ← first]
  cases x.result with
  | ok a => exact next a
  | error e => rfl

/-! ### Steps without notes -/

theorem ofText_bind (x : Except Textless α) (f : α → Except Textless β) :
    (ofText (x >>= f) : Report ν β) = ofText x >>= fun a => ofText (f a) := by
  cases x <;> rfl

theorem ofOption_bind (x : Option α) (f : α → Option β) :
    (ofOption (x >>= f) : Report ν β) = ofOption x >>= fun a => ofOption (f a) := by
  cases x with
  | none => rfl
  | some a => exact (done_andThen a fun a => ofOption (f a)).symm

theorem ofText_result_eq_ok_iff {x : Except Textless α} {a : α} :
    (ofText x : Report ν α).result = .ok a ↔ x = .ok a := by
  cases x with
  | error e => exact iff_of_false nofun nofun
  | ok b =>
    constructor <;> intro h
    · cases h
      rfl
    · cases h
      rfl

/-! ### Matching -/

/-- Two steps match along a relation of their values. -/
def Matches (r : α → β → Prop) (x : Report ν α) (y : Report ν β) : Prop :=
  match x.result, y.result with
  | .ok a, .ok b => r a b
  | .error _, .error _ => True
  | _, _ => False

theorem Matches.of_eq {r : α → α → Prop} (h : ∀ a, r a a) {x y : Report ν α} (eq : x = y) :
    Matches r x y := by
  subst eq
  unfold Matches
  cases x.result with
  | error e => trivial
  | ok a => exact h a

theorem Matches.refl (x : Report ν α) : Matches (· = ·) x x := .of_eq (fun _ => rfl) rfl

theorem Matches.pure {r : α → β → Prop} {a : α} {b : β} (h : r a b) :
    Matches r (Pure.pure a : Report ν α) (Pure.pure b) := h

theorem Matches.mono {r s : α → β → Prop} {x : Report ν α} {y : Report ν β} (h : Matches r x y)
    (imp : ∀ a b, r a b → s a b) : Matches s x y := by
  unfold Matches at h ⊢
  split at h
  · next a b _ _ => exact imp a b h
  · trivial
  · exact h.elim

/-- Matching steps, each followed by matching steps. -/
theorem Matches.bind {r : α → β → Prop} {s : γ → δ → Prop} {x : Report ν α} {y : Report ν β}
    {f : α → Report ν γ} {g : β → Report ν δ} (h : Matches r x y)
    (others : ∀ a b, r a b → Matches s (f a) (g b)) : Matches s (x >>= f) (y >>= g) := by
  change Matches s (andThen x f) (andThen y g)
  unfold Matches at h
  unfold andThen
  split at h
  · next a b left right =>
    rw [left, right]
    exact others a b h
  · next left right =>
    rw [left, right]
    trivial
  · exact h.elim

/-- A step, followed by steps that match for what it ends in. -/
theorem Matches.bind_of_ok {s : γ → δ → Prop} {x : Report ν α} {f : α → Report ν γ}
    {g : α → Report ν δ} (others : ∀ a, x.result = .ok a → Matches s (f a) (g a)) :
    Matches s (x >>= f) (x >>= g) := by
  change Matches s (andThen x f) (andThen x g)
  unfold andThen
  cases ended : x.result with
  | ok a => exact others a ended
  | error e => trivial

theorem Matches.map {r : α → β → Prop} {s : γ → δ → Prop} {x : Report ν α} {y : Report ν β}
    {f : α → γ} {g : β → δ} (h : Matches r x y) (others : ∀ a b, r a b → s (f a) (g b)) :
    Matches s (f <$> x) (g <$> y) := by
  rw [map_eq_pure_bind, map_eq_pure_bind]
  exact h.bind fun a b hab => .pure (others a b hab)

theorem Matches.of_values {r : α → β → Prop} {x : Report ν α} {y : Report ν β} {a : α} {b : β}
    (left : x.result = .ok a) (right : y.result = .ok b) (h : r a b) : Matches r x y := by
  unfold Matches
  rw [left, right]
  exact h

theorem Matches.of_failures {r : α → β → Prop} {x : Report ν α} {y : Report ν β} {e e' : Failure}
    (left : x.result = .error e) (right : y.result = .error e') : Matches r x y := by
  unfold Matches
  rw [left, right]
  trivial

/-- The values of two options, where both have one or neither has. -/
theorem Matches.ofOption {r : α → β → Prop} {o : Option α} {o' : Option β} (h : Option.Rel r o o') :
    Matches r (ofOption o : Report ν α) (Report.ofOption o') := by
  cases h with
  | some related => exact .pure related
  | none => exact .of_failures rfl rfl

/-- Two steps match if each ends in a value for every value that the other may end in. -/
theorem Matches.of_ok {r : α → β → Prop} {x : Report ν α} {y : Report ν β}
    (forth : ∀ a, x.result = .ok a → ∃ b, y.result = .ok b ∧ r a b)
    (back : ∀ b, y.result = .ok b → ∃ a, x.result = .ok a) : Matches r x y := by
  unfold Matches
  cases left : x.result with
  | ok a =>
    obtain ⟨b, right, h⟩ := forth a left
    rw [right]
    exact h
  | error e =>
    cases right : y.result with
    | error e' => trivial
    | ok b =>
      obtain ⟨a, ok⟩ := back b right
      rw [left] at ok
      cases ok

theorem Matches.exists_ok {r : α → β → Prop} {x : Report ν α} {y : Report ν β}
    (h : Matches r x y) {a : α} (ok : x.result = .ok a) : ∃ b, y.result = .ok b ∧ r a b := by
  unfold Matches at h
  rw [ok] at h
  cases right : y.result with
  | ok b =>
    rw [right] at h
    exact ⟨b, rfl, h⟩
  | error e =>
    rw [right] at h
    exact h.elim

theorem Matches.symm {r : α → β → Prop} {x : Report ν α} {y : Report ν β} (h : Matches r x y) :
    Matches (fun b a => r a b) y x := by
  refine .of_ok (fun b right => ?_) fun a left => ?_
  · unfold Matches at h
    rw [right] at h
    cases left : x.result with
    | ok a =>
      rw [left] at h
      exact ⟨a, rfl, h⟩
    | error e =>
      rw [left] at h
      exact h.elim
  · obtain ⟨b, right, -⟩ := h.exists_ok left
    exact ⟨b, right⟩

theorem Matches.trans {r : α → β → Prop} {s : β → γ → Prop} {t : α → γ → Prop}
    {x : Report ν α} {y : Report ν β} {z : Report ν γ} (h : Matches r x y) (h' : Matches s y z)
    (comp : ∀ a b c, r a b → s b c → t a c) : Matches t x z := by
  refine .of_ok (fun a left => ?_) fun c right => ?_
  · obtain ⟨b, middle, hab⟩ := h.exists_ok left
    obtain ⟨c, right, hbc⟩ := h'.exists_ok middle
    exact ⟨c, right, comp a b c hab hbc⟩
  · obtain ⟨b, middle, -⟩ := h'.symm.exists_ok right
    obtain ⟨a, left, -⟩ := h.symm.exists_ok middle
    exact ⟨a, left⟩

/-- Steps match by equality when they end in the same values. -/
theorem matches_eq_iff {x y : Report ν α} :
    Matches (· = ·) x y ↔ ∀ a, x.result = .ok a ↔ y.result = .ok a := by
  unfold Matches
  cases x.result with
  | error e =>
    cases y.result with
    | error e' => exact iff_of_true trivial fun _ => iff_of_false nofun nofun
    | ok b => exact iff_of_false id fun h => nomatch (h b).2 rfl
  | ok a =>
    cases y.result with
    | error e' => exact iff_of_false id fun h => nomatch (h a).1 rfl
    | ok b => exact ⟨fun h c => by rw [h], fun h => Except.ok.inj ((h b).2 rfl)⟩

/-! ### What a step yields -/

/-- Whether the value that a step ends in, if it does, satisfies a predicate. -/
def Yields (P : α → Prop) (x : Report ν α) : Prop := ∀ a, x.result = .ok a → P a

theorem Yields.pure {P : α → Prop} {a : α} (h : P a) : Yields P (Pure.pure a : Report ν α) := by
  intro b ended
  cases ended
  exact h

/-- Nothing is known of the value that a step ends in. -/
theorem yields_true (x : Report ν α) : Yields (fun _ => True) x := fun _ _ => trivial

/-- A step for the values of a first one yields what it yields for each value that the first one
yields. -/
theorem Yields.bind {P : α → Prop} {Q : β → Prop} {x : Report ν α} {f : α → Report ν β}
    (first : Yields P x) (next : ∀ a, P a → Yields Q (f a)) : Yields Q (x >>= f) := by
  intro b ended
  obtain ⟨a, ended, ended'⟩ := bind_result_eq_ok_iff.1 ended
  exact next a (first a ended) b ended'

/-- A step that follows another yields what it yields after any value. -/
theorem yields_bind {Q : β → Prop} {x : Report ν α} {f : α → Report ν β}
    (next : ∀ a, Yields Q (f a)) : Yields Q (x >>= f) :=
  (yields_true x).bind fun a _ => next a

theorem Yields.map {P : α → Prop} {Q : β → Prop} {x : Report ν α} {f : α → β} (h : Yields P x)
    (imp : ∀ a, P a → Q (f a)) : Yields Q (f <$> x) := by
  rw [map_eq_pure_bind]
  exact h.bind fun a ha => .pure (imp a ha)

/-- One of two steps yields what both yield. -/
theorem Yields.ite {P : α → Prop} {c : Prop} [Decidable c] {x y : Report ν α} (h : Yields P x)
    (h' : Yields P y) : Yields P (if c then x else y) := by
  split
  · exact h
  · exact h'

theorem result_ofExcept (e : Except Failure α) : (ofExcept e : Report ν α).result = e := rfl

/-- What follows a step that is only taken on a condition, and that has no value. -/
theorem result_of_ite {c : Prop} [Decidable c] {x : Report ν Unit} {f : Unit → Report ν α} {a : α}
    (ended : (if c then x >>= f else f ()).result = .ok a) : (f ()).result = .ok a := by
  split at ended
  · obtain ⟨⟨⟩, -, ended⟩ := bind_result_eq_ok_iff.1 ended
    exact ended
  · exact ended

end ClientGen.Report
