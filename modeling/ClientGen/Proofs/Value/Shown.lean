import ClientGen.Proofs.Document.Renaming
import ClientGen.Value.Display

/-!
# Texts of values that are no text

The text of a number, a list or any other value that is no text itself begins in a way of its own
(`display_beginsApart`). So it names no component (`componentOf?_display`) and is not `null`
(`eq_null_of_shown`).
-/

namespace ClientGen

/-- Whether a text begins with neither of the characters that references and `null` begin with. -/
def BeginsApart (s : String) : Prop := ∀ c, s.toList.head? = some c → c ≠ '#' ∧ c ≠ 'n'

namespace BeginsApart

theorem append {s : String} (apart : BeginsApart s) (some : s ≠ "") (t : String) :
    BeginsApart (s ++ t) := by
  intro c first
  refine apart c ?_
  rwa [String.toList_append, List.head?_append_of_ne_nil] at first
  exact fun none => some (String.toList_eq_nil_iff.1 none)

theorem of_chars {s : String} (each : ∀ c ∈ s.toList, c ≠ '#' ∧ c ≠ 'n') : BeginsApart s :=
  fun c first => each c (List.mem_of_head? first)

theorem of_first {s : String} {c : Char} (first : s.toList.head? = some c)
    (apart : c ≠ '#' ∧ c ≠ 'n') : BeginsApart s := by
  intro d first'
  rw [first, Option.some.injEq] at first'
  exact first' ▸ apart

theorem opening {s : String} {c : Char} (first : s.toList.head? = some c)
    (apart : c ≠ '#' ∧ c ≠ 'n') (t : String) : BeginsApart (s ++ t) := by
  refine (of_first first apart).append (fun none => ?_) t
  rw [none] at first
  cases first

end BeginsApart

theorem ne_of_isDigit {c : Char} (digit : c.isDigit = true) : c ≠ '#' ∧ c ≠ 'n' := by
  constructor <;> rintro rfl <;> revert digit <;> decide

theorem isDigit_of_mem_toString {n : Nat} {c : Char} (mem : c ∈ (toString n).toList) :
    c.isDigit = true := by
  rw [Nat.toString_eq_repr, Nat.toList_repr] at mem
  exact Nat.isDigit_of_mem_toDigits (by decide) (by decide) mem

theorem beginsApart_toString (n : Nat) : BeginsApart (toString n) :=
  .of_chars fun _ mem => ne_of_isDigit (isDigit_of_mem_toString mem)

theorem beginsApart_int (n : Int) : BeginsApart (toString n) := by
  cases n with
  | ofNat n => exact beginsApart_toString n
  | negSucc n =>
    refine .of_first (c := '-') ?_ (by decide)
    change ("-" ++ Nat.repr n.succ).toList.head? = _
    rw [String.toList_append]
    rfl

namespace Decimal

/-- Characters of which each is seen to be apart. -/
theorem apart_of_all {cs : List Char} (all : (cs.all fun c => c != '#' && c != 'n') = true) :
    ∀ c ∈ cs, c ≠ '#' ∧ c ≠ 'n' := by
  intro c mem
  have apart := List.all_eq_true.1 all c mem
  rwa [Bool.and_eq_true, bne_iff_ne, bne_iff_ne] at apart

theorem apart_of_mem_digitsOf (n : Nat) : ∀ c ∈ digitsOf n, c ≠ '#' ∧ c ≠ 'n' :=
  fun _ mem => ne_of_isDigit (isDigit_of_mem_toString mem)

theorem apart_of_mem_zeros (n : Nat) : ∀ c ∈ List.replicate n '0', c ≠ '#' ∧ c ≠ 'n' := by
  intro c mem
  rw [List.eq_of_mem_replicate mem]
  decide

theorem apart_of_mem_exponentText (e : Int) :
    ∀ c ∈ (exponentText e).toList, c ≠ '#' ∧ c ≠ 'n' := by
  rw [exponentText, String.toList_append, String.toList_ofList, List.forall_mem_append]
  constructor
  · split <;> exact apart_of_all rfl
  · split
    · exact List.forall_mem_cons.2 ⟨by decide, apart_of_mem_digitsOf _⟩
    · exact apart_of_mem_digitsOf _

theorem apart_of_mem_magnitudeText (digits : Nat) (exponent : Int) :
    ∀ c ∈ (magnitudeText digits exponent).toList, c ≠ '#' ∧ c ≠ 'n' := by
  have each := apart_of_mem_digitsOf digits
  dsimp only [magnitudeText]
  generalize (if digits == 0 then (1 : Int) else (digitsOf digits).length + exponent) = point
  split
  · split
    · rw [String.toList_append, List.forall_mem_append]
      refine ⟨apart_of_all rfl, ?_⟩
      rw [String.toList_ofList, List.forall_mem_append]
      exact ⟨apart_of_mem_zeros _, each⟩
    · rw [String.toList_append, String.toList_append, String.toList_ofList,
        List.forall_mem_append, List.forall_mem_append, List.forall_mem_append]
      refine ⟨⟨⟨fun c mem => each c (List.mem_of_mem_take mem), apart_of_mem_zeros _⟩,
        apart_of_all rfl⟩, ?_⟩
      split
      · exact apart_of_all rfl
      · rw [String.toList_ofList]
        exact fun c mem => each c (List.mem_of_mem_drop mem)
  · split
    · exact apart_of_all rfl
    · next d rest written =>
      rw [written, List.forall_mem_cons] at each
      rw [String.toList_append, String.toList_ofList, List.forall_mem_append,
        List.forall_mem_cons]
      refine ⟨⟨each.1, ?_⟩, apart_of_mem_exponentText _⟩
      split
      · exact List.forall_mem_nil _
      · exact List.forall_mem_cons.2 ⟨by decide, each.2⟩

theorem beginsApart_text (d : Decimal) :
    d.text "inf" "nan" = "nan" ∨ BeginsApart (d.text "inf" "nan") := by
  cases d with
  | undefined => exact .inl rfl
  | infinite negative =>
    right
    cases negative <;> exact .of_first rfl (by decide)
  | finite negative digits exponent =>
    right
    refine .of_chars ?_
    rw [text, String.toList_append, List.forall_mem_append]
    refine ⟨?_, apart_of_mem_magnitudeText digits exponent⟩
    split <;> exact apart_of_all rfl

end Decimal

namespace Timestamp

theorem beginsApart_text (t : Timestamp) : BeginsApart t.text := by
  have year : BeginsApart (padded 4 t.year) := by
    refine .of_chars ?_
    rw [padded, String.toList_ofList, List.forall_mem_append]
    exact ⟨Decimal.apart_of_mem_zeros _, Decimal.apart_of_mem_digitsOf _⟩
  have some : padded 4 t.year ≠ "" := by
    intro none
    have written := congrArg String.toList none
    rw [padded, String.toList_ofList, String.toList_empty, List.append_eq_nil_iff,
      Nat.toString_eq_repr, Nat.toList_repr] at written
    exact Nat.toDigits_ne_nil written.2
  rw [text, String.append_assoc, String.append_assoc, String.append_assoc, String.append_assoc]
  exact year.append some _

end Timestamp

namespace Value

theorem display_beginsApart {v : Value} (untext : v.str? = none) :
    v.display = "nan" ∨ BeginsApart v.display := by
  cases v with
  | str s => cases untext
  | float d => exact Decimal.beginsApart_text d
  | int n => exact .inr (beginsApart_int n)
  | other x =>
    right
    cases x with
    | moment t => exact Timestamp.beginsApart_text t
    | bytes content =>
      refine .of_first (c := 'b') ?_ (by decide)
      change (String.ofList _).toList.head? = _
      rw [String.toList_ofList]
      rfl
  | list items =>
    right
    change BeginsApart (inner (.list items))
    rw [inner, String.append_assoc]
    exact .opening (c := '[') rfl (by decide) _
  | map es =>
    right
    change BeginsApart (inner (.map es))
    rw [inner, String.append_assoc]
    exact .opening (c := '\x7b') rfl (by decide) _
  | pair a b =>
    right
    change BeginsApart (inner (.pair a b))
    rw [inner, String.append_assoc, String.append_assoc, String.append_assoc]
    exact .opening (c := '(') rfl (by decide) _
  | set members =>
    right
    change BeginsApart (inner (.set members))
    rw [inner]
    split
    · exact .of_first rfl (by decide)
    · rw [String.append_assoc]
      exact .opening (c := '\x7b') rfl (by decide) _
  | loop kind =>
    right
    cases kind <;> exact .of_first rfl (by decide)
  | null => exact .inr (.of_first rfl (by decide))
  | bool b =>
    right
    cases b <;> exact .of_first rfl (by decide)

/-- The text of a value that is no text does not name a component. -/
theorem componentOf?_display {v : Value} (untext : v.str? = none) :
    Schema.componentOf? v.display = none := by
  cases named : Schema.componentOf? v.display with
  | none => rfl
  | some name =>
    have reference := Document.eq_append_of_componentOf? named
    rcases display_beginsApart untext with eq | apart
    · have first := congrArg (fun s => s.toList.head?) (eq.symm.trans reference)
      rw [String.toList_append] at first
      cases first
    · refine absurd rfl (apart '#' ?_).1
      rw [reference, String.toList_append]
      rfl

/-- Only the text `null` is shown like it. -/
theorem eq_null_of_shown {v : Value} (h : v.shown = .ok "null") : v = .str "null" := by
  rw [shown] at h
  split at h
  · have shown : v.display = "null" := Except.ok.inj h
    cases untext : v.str? with
    | some s =>
      cases v with
      | str s => exact congrArg Value.str shown
      | _ => cases untext
    | none =>
      rcases display_beginsApart untext with eq | apart
      · rw [shown] at eq
        exact absurd eq (by decide)
      · exact absurd rfl (apart 'n' (by rw [shown]; rfl)).2
  · cases h

end Value

end ClientGen
