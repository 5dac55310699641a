import ClientGen.Proofs.Schema.Balanced
import ClientGen.Proofs.Schema.Returns

/-!
# Mappers that agree

Two steps of a mapper agree in a context if the first one leaves it as it was and the second one
does there what the first one does, unless the first one gives a note of a certain kind (`Agrees`).
Steps that are put together from steps that agree agree (`Agrees.bind_of_ok`): up to the first such
note both have done the same.

So mappers agree on a schema if they agree on the schemas that stand under its keywords
(`IsUnder`), one level down (`agrees_entries`). No other schemas are ever asked for.
-/

namespace ClientGen.Schema

namespace Mapping

variable {α β : Type} {noted : Note → Prop} {c : Context}

/-- Whether a step gives no note of a kind. -/
def Silent (noted : Note → Prop) (r : Lowering α) : Prop := ∀ n ∈ r.notes, ¬noted n

theorem Silent.of_bind {x : Lowering α} {f : α → Lowering β} (h : Silent noted (x >>= f)) :
    Silent noted x ∧ ∀ a, x.result = .ok a → Silent noted (f a) := by
  obtain ⟨notes, result⟩ := x
  cases result with
  | error e => exact ⟨h, nofun⟩
  | ok a =>
    refine ⟨fun n mem => h n (List.mem_append_left _ mem), ?_⟩
    rintro _ ⟨⟩
    exact fun n mem => h n (List.mem_append_right _ mem)

/-- Whether `y` does in a context what `x` does, unless `x` gives a note of a kind; and `x` leaves
the context as it was. -/
structure Agrees (noted : Note → Prop) (c : Context) (x y : Mapping α) : Prop where
  balanced : (x c).2 = c
  same : Silent noted (x c).1 → y c = x c

variable {x y : Mapping α} {f g : α → Mapping β}

theorem Agrees.runs (h : Agrees noted c x y) : Runs x c (x c).1 := Prod.ext rfl h.balanced

theorem Agrees.runs_of_silent (h : Agrees noted c x y) (silent : Silent noted (x c).1) :
    Runs y c (x c).1 := (h.same silent).trans h.runs

theorem Agrees.of_runs {r : Lowering α} (runs : Runs x c r) (same : Silent noted r → Runs y c r) :
    Agrees noted c x y := by
  refine ⟨congrArg Prod.snd runs, fun silent => ?_⟩
  rw [runs] at silent ⊢
  exact same silent

/-! ### Steps that are put together -/

theorem Agrees.report (r : Lowering α) : Agrees noted c (report r) (report r) :=
  .of_runs (.report r) fun _ => .report r

theorem Agrees.pure (a : α) : Agrees noted c (pure a) (pure a) :=
  .of_runs (.pure a) fun _ => .pure a

theorem Agrees.context_bind {f g : Context → Mapping β} (h : Agrees noted c (f c) (g c)) :
    Agrees noted c (context >>= f) (context >>= g) :=
  .of_runs (.context_bind h.runs) fun silent => .context_bind (h.runs_of_silent silent)

/-- The steps that follow need to agree for the value only that the first one ends in. -/
theorem Agrees.bind_of_ok (h : Agrees noted c x y)
    (next : ∀ a, (x c).1.result = .ok a → Agrees noted c (f a) (g a)) :
    Agrees noted c (x >>= f) (y >>= g) := by
  refine .of_runs (h.runs.bind_of_ok fun a ended => (next a ended).runs) fun silent => ?_
  obtain ⟨first, others⟩ := silent.of_bind
  exact (h.runs_of_silent first).bind_of_ok fun a ended =>
    (next a ended).runs_of_silent (others a ended)

theorem Agrees.bind (h : Agrees noted c x y) (next : ∀ a, Agrees noted c (f a) (g a)) :
    Agrees noted c (x >>= f) (y >>= g) :=
  h.bind_of_ok fun a _ => next a

/-- A step in front that does nothing does not matter. -/
theorem Agrees.after (h : Agrees noted c x y) {z : Mapping β} {b : β} (quiet : Runs z c (Pure.pure b)) :
    Agrees noted c x (z >>= fun _ => y) := by
  refine .of_runs h.runs fun silent => ?_
  have after := quiet.bind fun _ => h.runs_of_silent silent
  rwa [pure_bind] at after

theorem Agrees.each {as : List α} (step : ∀ a ∈ as, Agrees noted c (f a) (g a)) :
    Agrees noted c (each f as) (each g as) := by
  induction as with
  | nil => exact .pure []
  | cons a rest ih =>
    obtain ⟨first, others⟩ := List.forall_mem_cons.1 step
    exact first.bind fun b => (ih others).bind fun bs => .pure (b :: bs)

theorem Agrees.resolving {name : String} (h : Agrees noted (c.push name) x y) :
    Agrees noted c (resolving name x) (resolving name y) :=
  .of_runs (.resolving h.runs) fun silent => .resolving (h.runs_of_silent silent)

theorem Agrees.descend {limit limit' : Int} {block block' : Bool → Mapping α}
    (h : Agrees noted c.deeper (block (decide (c.depth + 1 ≤ limit)))
      (block' (decide (c.depth + 1 ≤ limit')))) :
    Agrees noted c (descend limit block) (descend limit' block') :=
  .of_runs (.descend h.runs) fun silent => .descend (h.runs_of_silent silent)

end Mapping

namespace Mapper

open Mapping (Agrees)

/-- Whether a value stands where lowering looks for a schema, under a keyword of another schema. -/
inductive IsUnder (es : Entries) : Value → Prop
  | schema {name : String} (role : roleOf (.str name) = .schema) : IsUnder es (es.get name)
  | item {name : String} {v : Value}
      (role : roleOf (.str name) = .sequence ∨ roleOf (.str name) = .alternatives)
      (mem : v ∈ itemsOf (es.get name)) : IsUnder es v
  | named {name : String} {ps : Entries} {p : Key × Value} (role : roleOf (.str name) = .named)
      (members : es.get name = .map ps) (mem : p ∈ ps) : IsUnder es p.2

/-! ### Types -/

section Types

variable {noted : Note → Prop} {c : Context} {sub sub' : Value → Mapping TypeExpr}

theorem agrees_members (required : List Key) {ps : Entries}
    (h : ∀ p ∈ ps, Agrees noted c (sub p.2) (sub' p.2)) :
    Agrees noted c (members sub required ps) (members sub' required ps) :=
  .each fun p mem => (Agrees.report _).bind fun _ => (h p mem).bind fun _ => .pure _

theorem agrees_additional {v : Value} (h : Agrees noted c (sub v) (sub' v)) :
    Agrees noted c (additional sub v) (additional sub' v) := by
  cases v with
  | bool b => cases b <;> exact .pure _
  | map es =>
    cases es with
    | nil => exact .pure _
    | cons e fs => exact h.bind fun _ => .pure _
  | _ => exact .pure _

theorem agrees_items {v : Value} (h : Agrees noted c (sub v) (sub' v)) :
    Agrees noted c (items sub v) (items sub' v) := by
  cases v with
  | null => exact .pure _
  | bool b =>
    cases b with
    | false => exact .pure _
    | true => exact h.bind fun _ => .pure _
  | _ => exact h.bind fun _ => .pure _

variable {es : Entries} (h : ∀ v, IsUnder es v → Agrees noted c (sub v) (sub' v))

include h

theorem agrees_object : Agrees noted c (object sub es) (object sub' es) := by
  refine (Agrees.report _).bind fun required => (Agrees.report _).bind_of_ok fun ps read => ?_
  have properties : ∀ p ∈ ps, Agrees noted c (sub p.2) (sub' p.2) := by
    have read : propertyEntries? (es.get "properties") = some ps := by
      cases found : propertyEntries? (es.get "properties") with
      | none => rw [found] at read; cases read
      | some qs => rw [found] at read; cases read; rfl
    obtain ⟨-, rfl | members⟩ := propertyEntries?_eq read
    · exact List.forall_mem_nil _
    · exact fun p mem => h _ (.named rfl members mem)
  refine (agrees_members required properties).bind fun members => ?_
  exact (agrees_additional (h _ (.schema rfl))).bind fun value => .pure _

theorem agrees_listed {name : String}
    (role : roleOf (.str name) = .sequence ∨ roleOf (.str name) = .alternatives)
    {vs : List Value} (listed : es.get name = .list vs) :
    Agrees noted c (Mapping.each sub vs) (Mapping.each sub' vs) := by
  refine .each fun v mem => h v (.item role ?_)
  rw [listed]
  exact mem

theorem agrees_array : Agrees noted c (array sub es) (array sub' es) := by
  have alone : Agrees noted c (items sub (es.get "items")) (items sub' (es.get "items")) :=
    agrees_items (h _ (.schema rfl))
  unfold array
  split
  · next first rest listed =>
    exact (agrees_listed h (.inl rfl) listed).bind fun _ => .pure _
  · exact alone

theorem agrees_single (type : String) :
    Agrees noted c (single sub es type) (single sub' es type) := by
  unfold single
  split
  · exact .pure _
  · split
    · exact agrees_array h
    · split
      · exact agrees_object h
      · exact (Agrees.report _).bind fun _ => .pure _

theorem agrees_keyword {name : String} (mem : name ∈ compositionKeywords) :
    Agrees noted c (keyword sub es name) (keyword sub' es name) := by
  unfold keyword
  split
  · next first rest listed =>
    exact (agrees_listed h (.inr (roleOf_alternatives mem)) listed).bind fun _ => .pure _
  · exact .pure _

theorem agrees_own : Agrees noted c (own sub es) (own sub' es) := by
  unfold own
  split
  · exact (agrees_object h).bind fun _ => .pure _
  · exact .pure _

theorem agrees_composition : Agrees noted c (composition sub es) (composition sub' es) := by
  refine (Agrees.each fun name mem => agrees_keyword h mem).bind fun parts => ?_
  exact (agrees_own h).bind fun own => (Agrees.report _).bind fun types => .pure _

theorem agrees_unlisted : Agrees noted c (unlisted sub es) (unlisted sub' es) := by
  unfold unlisted
  split
  · exact agrees_composition h
  · refine (Agrees.report _).bind fun types => ?_
    split
    · exact .pure _
    · exact (Agrees.each fun type _ => agrees_single h type).bind fun _ => .pure _

/-- Mappers that agree on the schemas under the keywords of a schema agree on the schema, whatever
the limits of nesting are. -/
theorem agrees_entries (components : Components) (limit limit' : Int) :
    Agrees noted c (entries sub ⟨components, limit⟩ es) (entries sub' ⟨components, limit'⟩ es) := by
  have same : listed? ⟨components, limit'⟩ es = listed? ⟨components, limit⟩ es := rfl
  rw [entries, entries, same]
  split
  · exact .report _
  · exact agrees_unlisted h

end Types

end Mapper

end ClientGen.Schema
