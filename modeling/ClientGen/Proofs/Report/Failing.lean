import ClientGen.Proofs.Lists.Pointwise
import ClientGen.Proofs.Report.Matching

/-!
# What a step fails with

`Fails P x` says that the step `x` ends in a failure that satisfies `P`, if it ends in a failure at
all. Steps that are put together fail with what their parts fail with (`Fails.bind`). Most steps
fail only because of a value that cannot be used where it stands (`Failure.IsAboutValue`).
-/

namespace ClientGen

/-- Whether a failure is that a value cannot be used where it stands. -/
inductive Failure.IsAboutValue : Failure → Prop
  | malformed : IsAboutValue .malformed
  | textless (cause : Textless) : IsAboutValue (.textless cause)

/-! ### Steps without notes -/

/-- Whether the failure that an outcome is, if it is one, satisfies a predicate. -/
def FailsWith {ε α : Type} (P : ε → Prop) (x : Except ε α) : Prop := ∀ e, x = .error e → P e

section Outcomes

variable {ε α β : Type} {P : ε → Prop}

theorem failsWith_ok (a : α) : FailsWith P (.ok a : Except ε α) := nofun

theorem FailsWith.bind {x : Except ε α} {f : α → Except ε β} (first : FailsWith P x)
    (next : ∀ a, FailsWith P (f a)) : FailsWith P (x >>= f) := by
  cases x with
  | ok a => exact next a
  | error e => exact fun e' ended => first e' (congrArg Except.error (Except.error.inj ended))

theorem FailsWith.mono {Q : ε → Prop} {x : Except ε α} (h : FailsWith P x) (imp : ∀ e, P e → Q e) :
    FailsWith Q x := fun e ended => imp e (h e ended)

theorem failsWith_mapM {f : α → Except ε β} (h : ∀ a, FailsWith P (f a)) (as : List α) :
    FailsWith P (as.mapM f) := by
  induction as with
  | nil => exact failsWith_ok _
  | cons a rest ih =>
    rw [List.mapM_cons]
    exact (h a).bind fun b => ih.bind fun bs => failsWith_ok _

end Outcomes

/-! ### Steps with notes -/

namespace Report

variable {ν α β : Type} {P : Failure → Prop}

/-- Whether the failure that a step ends in, if it does, satisfies a predicate. -/
def Fails (P : Failure → Prop) (x : Report ν α) : Prop := FailsWith P x.result

theorem fails_pure (a : α) : Fails P (pure a : Report ν α) := nofun

theorem fails_note (n : ν) : Fails P (note n) := nofun

/-- A step for the value of a first one. -/
theorem Fails.bind_of_ok {x : Report ν α} {f : α → Report ν β} (first : Fails P x)
    (next : ∀ a, x.result = .ok a → Fails P (f a)) : Fails P (x >>= f) := by
  change Fails P (andThen x f)
  unfold Fails andThen
  cases ended : x.result with
  | ok a => exact next a ended
  | error e => exact fun e' same => first e' (ended.trans (congrArg _ (Except.error.inj same)))

theorem Fails.bind {x : Report ν α} {f : α → Report ν β} (first : Fails P x)
    (next : ∀ a, Fails P (f a)) : Fails P (x >>= f) := first.bind_of_ok fun a _ => next a

/-- A step and then one that does not fail. -/
theorem Fails.bind_pure {x : Report ν α} (h : Fails P x) (f : α → β) :
    Fails P (x >>= fun a => pure (f a)) := h.bind fun a => fails_pure (f a)

theorem Fails.map {x : Report ν α} (h : Fails P x) (f : α → β) : Fails P (f <$> x) := by
  rw [map_eq_pure_bind]
  exact h.bind_pure f

theorem Fails.ite {c : Prop} [Decidable c] {x y : Report ν α} (h : Fails P x) (h' : Fails P y) :
    Fails P (if c then x else y) := by
  split
  · exact h
  · exact h'

theorem Fails.mono {Q : Failure → Prop} {x : Report ν α} (h : Fails P x) (imp : ∀ e, P e → Q e) :
    Fails Q x := FailsWith.mono h imp

theorem fails_malformed : Fails Failure.IsAboutValue (malformed : Report ν α) := by
  rintro _ ⟨⟩
  exact .malformed

theorem fails_ofOption (o : Option α) : Fails Failure.IsAboutValue (ofOption o : Report ν α) := by
  cases o with
  | none => exact fails_malformed
  | some a => exact fails_pure a

theorem fails_ofText (x : Except Textless α) :
    Fails Failure.IsAboutValue (ofText x : Report ν α) := by
  cases x with
  | ok a => exact fails_pure a
  | error cause =>
    rintro _ ⟨⟩
    exact .textless cause

theorem fails_ofExcept {x : Except Failure α} (h : FailsWith P x) :
    Fails P (ofExcept x : Report ν α) := h

end Report

end ClientGen
