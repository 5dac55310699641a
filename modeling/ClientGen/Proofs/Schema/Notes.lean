import ClientGen.Proofs.Report.Matching
import ClientGen.Proofs.Schema.Parts
import ClientGen.Schema.Declare

/-!
# What lowering tells

The type of a schema is given with warnings about the schema and with nothing else: all of them
belong to the channel of the mapper (`lowerWithin_tells`). So the warnings of another channel
(`warningsOn`) are those of other steps.
-/

namespace ClientGen

namespace Report

variable {ν α β : Type} {P : ν → Prop}

/-- Whether all notes of a step are of a kind. -/
def Tells (P : ν → Prop) (x : Report ν α) : Prop := ∀ n ∈ x.notes, P n

theorem tells_of_notes_eq_nil {x : Report ν α} (none : x.notes = []) : Tells P x := by
  rw [Tells, none]
  exact List.forall_mem_nil P

theorem tells_pure (a : α) : Tells P (pure a : Report ν α) := tells_of_notes_eq_nil rfl

theorem tells_ofText (x : Except Textless α) : Tells P (ofText x : Report ν α) :=
  tells_of_notes_eq_nil rfl

theorem tells_ofOption (o : Option α) : Tells P (ofOption o : Report ν α) := by
  cases o <;> exact tells_of_notes_eq_nil rfl

theorem Tells.bind {x : Report ν α} {f : α → Report ν β} (h : Tells P x)
    (next : ∀ a, Tells P (f a)) : Tells P (x >>= f) := by
  obtain ⟨notes, result⟩ := x
  cases result with
  | error e => exact h
  | ok a => exact fun n mem => (List.mem_append.1 mem).elim (h n) (next a n)

theorem Tells.mono {Q : ν → Prop} {x : Report ν α} (h : Tells P x) (imp : ∀ n, P n → Q n) :
    Tells Q x := fun n mem => imp n (h n mem)

theorem Tells.bind_pure {x : Report ν α} (h : Tells P x) (f : α → β) :
    Tells P (x >>= fun a => pure (f a)) := h.bind fun a => tells_pure (f a)

theorem Tells.map {x : Report ν α} (h : Tells P x) (f : α → β) : Tells P (f <$> x) := by
  rw [map_eq_pure_bind]
  exact h.bind_pure f

end Report

namespace Schema

open Report (Tells tells_pure tells_ofText tells_ofOption)

/-! ### Warnings of one channel -/

/-- The warnings that a step gives on a channel. -/
def warningsOn {α : Type} (channel : String) (x : Lowering α) : List Warning :=
  (warningsOf x.notes).filter (·.channel = channel)

/-- Whether a note is no warning on a channel. -/
def IsOff (channel : String) (n : Note) : Prop := ∀ w, n = .warning w → w.channel ≠ channel

section Channels

variable {α β : Type} {channel : String}

theorem warningsOn_bind {x : Lowering α} {f : α → Lowering β} {a : α} (ended : x.result = .ok a) :
    warningsOn channel (x >>= f) = warningsOn channel x ++ warningsOn channel (f a) := by
  obtain ⟨notes, result⟩ := x
  cases ended
  change (warningsOf (notes ++ (f a).notes)).filter _ = _
  rw [warningsOf, List.filterMap_append, List.filter_append]
  rfl

@[simp] theorem warningsOn_pure (a : α) : warningsOn channel (pure a : Lowering α) = [] := rfl

theorem warningsOn_of_tells {x : Lowering α} (h : Tells (IsOff channel) x) :
    warningsOn channel x = [] := by
  rw [warningsOn, List.filter_eq_nil_iff]
  intro w mem
  obtain ⟨n, listed, found⟩ := List.mem_filterMap.1 mem
  cases n with
  | discriminator _ _ => cases found
  | warning w' =>
    obtain rfl := Option.some.inj found
    simpa using h _ listed w' rfl

end Channels

/-! ### Warnings of the mapper -/

/-- The channel of the mapper. -/
def mapperChannel : String := "oas_generator.typescript.schema_mapper"

/-- Whether a note is a warning about schemas. -/
def IsAboutSchema (n : Note) : Prop := ∃ w : Warning, n = .warning w ∧ w.channel = mapperChannel

/-- Warnings about schemas are on no other channel. -/
theorem IsAboutSchema.isOff {channel : String} (other : mapperChannel ≠ channel) {n : Note}
    (h : IsAboutSchema n) : IsOff channel n := by
  obtain ⟨w, rfl, same⟩ := h
  rintro _ ⟨⟩
  rwa [same]

theorem tells_warn {w : Warning} (channel : w.channel = mapperChannel) :
    Tells IsAboutSchema (warn w) := by
  intro n mem
  rw [List.mem_singleton.1 mem]
  exact ⟨w, rfl, channel⟩

theorem eachOf_tells {α β : Type} {P : Note → Prop} {f : α → Lowering β} (h : ∀ a, Tells P (f a))
    (as : List α) : Tells P (eachOf f as) := by
  induction as with
  | nil => exact tells_pure _
  | cons a rest ih => exact (h a).bind fun b => ih.bind_pure _

theorem lowerReference_tells (scope : Scope) (ref : String) :
    Tells IsAboutSchema (lowerReference scope ref) := by
  unfold lowerReference
  split
  · exact tells_pure _
  · exact (tells_warn rfl).bind_pure _

theorem lowerLiteral_tells (v : Value) : Tells IsAboutSchema (lowerLiteral v) := by
  unfold lowerLiteral
  split
  · exact tells_pure _
  · exact (tells_ofText _).bind_pure _

section Parts

variable {sub : Value → Lowering TypeExpr} (h : ∀ v, Tells IsAboutSchema (sub v))

include h

theorem lowerObject_tells (es : Entries) : Tells IsAboutSchema (lowerObject sub es) := by
  have members (required : List Key) (ps : Entries) :
      Tells IsAboutSchema (lowerMembers sub required ps) :=
    eachOf_tells (fun (key, schema) => (tells_ofText _).bind fun _ => (h schema).bind_pure _) ps
  have additional (v : Value) : Tells IsAboutSchema (lowerAdditional sub v) := by
    unfold lowerAdditional
    split
    · exact tells_pure _
    · exact tells_pure _
    · exact (h _).bind_pure _
    · exact tells_pure _
  refine (tells_ofOption _).bind fun required => (tells_ofOption _).bind fun properties => ?_
  refine (members required properties).bind fun ms => (additional _).bind fun value => ?_
  split
  · exact tells_pure _
  · exact tells_pure _
  · exact tells_pure _
  · split <;> exact tells_pure _

theorem lowerArray_tells (es : Entries) : Tells IsAboutSchema (lowerArray sub es) := by
  unfold lowerArray
  split
  · exact (eachOf_tells h _).bind_pure _
  · split
    · exact tells_pure _
    · exact tells_pure _
    · exact (h _).bind_pure _

theorem lowerSingle_tells (es : Entries) (type : String) :
    Tells IsAboutSchema (lowerSingle sub es type) := by
  unfold lowerSingle
  split
  · exact tells_pure _
  · split
    · exact lowerArray_tells h es
    · split
      · exact lowerObject_tells h es
      · exact (tells_warn rfl).bind_pure _

theorem lowerKeyword_tells (es : Entries) (keyword : String) :
    Tells IsAboutSchema (lowerKeyword sub es keyword) := by
  unfold lowerKeyword
  split
  · exact (eachOf_tells h _).bind_pure _
  · exact tells_pure _

theorem lowerComposition_tells (es : Entries) : Tells IsAboutSchema (lowerComposition sub es) := by
  have own : Tells IsAboutSchema (ownPart sub es) := by
    unfold ownPart
    split
    · rw [map_eq_pure_bind]
      exact (lowerObject_tells h es).bind_pure _
    · exact tells_pure _
  rw [lowerComposition_eq]
  refine Tells.bind ?_ fun type => (tells_ofText _).bind_pure _
  exact (eachOf_tells (lowerKeyword_tells h es) _).bind fun parts => own.bind_pure _

theorem lowerEntries_tells (scope : Scope) (es : Entries) :
    Tells IsAboutSchema (lowerEntries sub scope es) := by
  unfold lowerEntries
  split
  · exact lowerReference_tells scope _
  · split
    · exact lowerLiteral_tells _
    · split
      · exact (eachOf_tells lowerLiteral_tells _).bind_pure _
      · split
        · exact lowerComposition_tells h es
        · refine (tells_ofText _).bind fun types => ?_
          split
          · exact tells_pure _
          · exact (eachOf_tells (lowerSingle_tells h es) _).bind_pure _

end Parts

/-- **The type of a schema is given with warnings of the mapper only.** -/
theorem lowerWithin_tells (scope : Scope) (budget : Nat) (v : Value) :
    Tells IsAboutSchema (lowerWithin scope budget v) := by
  induction budget generalizing v with
  | zero =>
    cases v with
    | map es => exact (tells_warn rfl).bind_pure _
    | bool b => cases b <;> exact tells_pure _
    | _ => exact tells_pure _
  | succ budget ih =>
    cases v with
    | map es => exact (lowerEntries_tells ih scope es).bind_pure _
    | bool b => cases b <;> exact tells_pure _
    | _ => exact tells_pure _

end Schema

end ClientGen
