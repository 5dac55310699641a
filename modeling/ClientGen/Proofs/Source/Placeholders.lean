import ClientGen.Source.Literal

/-!
# Placeholders of a path

A placeholder is a name in braces (`IsPlaceholder`). The pieces of a path are found from the left:
a placeholder wherever characters begin with one (`pieces_placeholder`), and a character of text
anywhere else (`pieces_cons`).

Every path can be **split at the placeholders of its parameters** (`exists_isSplit`): into text in
which none of them stands, and into the placeholders between.
-/

namespace ClientGen.Source

/-! ### Placeholders in a path -/

/-- Whether characters in braces are a placeholder. -/
def IsPlaceholder (name : List Char) : Prop := name ≠ [] ∧ '\x7b' ∉ name ∧ '\x7d' ∉ name

/-- Whether characters begin with a placeholder whose name is as said. -/
def AtPlaceholder (p : List Char → Prop) (cs : List Char) : Prop :=
  ∃ name after, cs = '\x7b' :: (name ++ '\x7d' :: after) ∧ IsPlaceholder name ∧ p name

/-- Whether a placeholder stands in characters whose name is as said. -/
inductive Holds (p : List Char → Prop) : List Char → Prop
  | here {cs} : AtPlaceholder p cs → Holds p cs
  | there {cs} (c : Char) : Holds p cs → Holds p (c :: cs)

/-- Whether a dollar sign stands in characters right before a placeholder whose name is as said. -/
inductive FollowsDollar (p : List Char → Prop) : List Char → Prop
  | here {cs} : AtPlaceholder p cs → FollowsDollar p ('$' :: cs)
  | there {cs} (c : Char) : FollowsDollar p cs → FollowsDollar p (c :: cs)

section Places

variable {p : List Char → Prop} {c : Char} {cs rest name : List Char}

theorem AtPlaceholder.head? (h : AtPlaceholder p cs) : cs.head? = some '\x7b' := by
  obtain ⟨name, after, rfl, -⟩ := h
  rfl

theorem not_followsDollar_nil : ¬FollowsDollar p [] := by
  intro inside
  cases inside

theorem followsDollar_cons_iff (apart : ¬(c = '$' ∧ AtPlaceholder p cs)) :
    FollowsDollar p (c :: cs) ↔ FollowsDollar p cs := by
  constructor
  · rintro (at' | ⟨-, inside⟩)
    · exact absurd ⟨rfl, at'⟩ apart
    · exact inside
  · exact .there c

theorem head?_append_ne (noBrace : '\x7b' ∉ cs) (next : rest.head? ≠ some '\x7b') :
    (cs ++ rest).head? ≠ some '\x7b' := by
  cases cs with
  | nil => exact next
  | cons c cs =>
    intro same
    exact noBrace (Option.some.inj same ▸ List.mem_cons_self)

theorem followsDollar_append_iff (noBrace : '\x7b' ∉ cs) (next : rest.head? ≠ some '\x7b') :
    FollowsDollar p (cs ++ rest) ↔ FollowsDollar p rest := by
  induction cs with
  | nil => rfl
  | cons c cs ih =>
    have noBrace' : '\x7b' ∉ cs := fun mem => noBrace (List.mem_cons_of_mem c mem)
    rw [List.cons_append, followsDollar_cons_iff, ih noBrace']
    exact fun both => head?_append_ne noBrace' next both.2.head?

/-- A placeholder has no dollar sign in it that stands before another one. -/
theorem followsDollar_placeholder_iff (placeholder : IsPlaceholder name) :
    FollowsDollar p ('\x7b' :: (name ++ '\x7d' :: rest)) ↔ FollowsDollar p rest := by
  rw [followsDollar_cons_iff (fun both => absurd both.1 (by decide)),
    followsDollar_append_iff placeholder.2.1 (by simp),
    followsDollar_cons_iff (fun both => absurd both.1 (by decide))]

/-- Whether a character may stand in a placeholder. -/
def isInPlaceholder (c : Char) : Bool := c != '\x7b' && c != '\x7d'

theorem isInPlaceholder_iff : (∀ c ∈ cs, isInPlaceholder c = true) ↔ '\x7b' ∉ cs ∧ '\x7d' ∉ cs := by
  simp only [isInPlaceholder, Bool.and_eq_true, bne_iff_ne]
  constructor
  · exact fun all => ⟨fun mem => (all _ mem).1 rfl, fun mem => (all _ mem).2 rfl⟩
  · rintro ⟨noOpen, noClose⟩ c mem
    exact ⟨fun same => noOpen (same ▸ mem), fun same => noClose (same ▸ mem)⟩

theorem placeholder?_eq (cs : List Char) : placeholder? cs =
    match cs.takeWhile isInPlaceholder, cs.dropWhile isInPlaceholder with
    | _ :: _, '\x7d' :: after => some (cs.takeWhile isInPlaceholder, after)
    | _, _ => none := by
  have cut := List.takeWhile_append_dropWhile (p := isInPlaceholder) (l := cs)
  have dropped : cs.drop (cs.takeWhile isInPlaceholder).length = cs.dropWhile isInPlaceholder :=
    (congrArg (List.drop _) cut.symm).trans List.drop_append_length
  rw [← dropped]
  rfl

theorem placeholder?_eq_some_iff {after : List Char} :
    placeholder? cs = some (name, after) ↔ cs = name ++ '\x7d' :: after ∧ IsPlaceholder name := by
  rw [placeholder?_eq]
  constructor
  · intro found
    split at found
    · next d ds rest taken left =>
      obtain ⟨rfl, rfl⟩ := Prod.mk.inj (Option.some.inj found)
      have chars := List.all_eq_true.1 (List.all_takeWhile (p := isInPlaceholder) (l := cs))
      have whole := List.takeWhile_append_dropWhile (p := isInPlaceholder) (l := cs)
      rw [left] at whole
      refine ⟨whole.symm, ?_, isInPlaceholder_iff.1 chars⟩
      rw [taken]
      exact List.cons_ne_nil d ds
    · cases found
  · rintro ⟨rfl, filled, chars⟩
    have inside := isInPlaceholder_iff.2 chars
    rw [List.takeWhile_append_of_pos inside, List.dropWhile_append_of_pos inside,
      List.takeWhile_cons_of_neg (by decide), List.dropWhile_cons_of_neg (by decide),
      List.append_nil]
    cases name with
    | nil => exact absurd rfl filled
    | cons d ds => rfl

theorem atPlaceholder_iff : AtPlaceholder p cs ↔
    ∃ rest name after, cs = '\x7b' :: rest ∧ placeholder? rest = some (name, after) ∧ p name := by
  constructor
  · rintro ⟨name, after, rfl, placeholder, h⟩
    exact ⟨_, name, after, rfl, placeholder?_eq_some_iff.2 ⟨rfl, placeholder⟩, h⟩
  · rintro ⟨rest, name, after, rfl, found, h⟩
    obtain ⟨rfl, placeholder⟩ := placeholder?_eq_some_iff.1 found
    exact ⟨name, after, rfl, placeholder, h⟩

section Decide

variable [DecidablePred p]

instance : (cs : List Char) → Decidable (AtPlaceholder p cs)
  | [] => isFalse fun at' => Option.some_ne_none _ at'.head?.symm
  | c :: rest =>
    if brace : c = '\x7b' then
      match found : placeholder? rest with
      | none => isFalse fun at' => by
        obtain ⟨_, _, _, same, found', -⟩ := atPlaceholder_iff.1 at'
        rw [← (List.cons.inj same).2, found] at found'
        cases found'
      | some (name, after) => decidable_of_iff (p name) ⟨fun h => atPlaceholder_iff.2
          ⟨rest, name, after, by rw [brace], found, h⟩, fun at' => by
        obtain ⟨_, _, _, same, found', h⟩ := atPlaceholder_iff.1 at'
        rw [← (List.cons.inj same).2, found] at found'
        cases found'
        exact h⟩
    else isFalse fun at' => brace (Option.some.inj at'.head?)

instance decidableFollowsDollar : (cs : List Char) → Decidable (FollowsDollar p cs)
  | [] => isFalse not_followsDollar_nil
  | c :: rest =>
    have := decidableFollowsDollar rest
    decidable_of_iff (c = '$' ∧ AtPlaceholder p rest ∨ FollowsDollar p rest) <| by
      constructor
      · rintro (⟨rfl, at'⟩ | inside)
        · exact .here at'
        · exact .there c inside
      · rintro (at' | ⟨-, inside⟩)
        · exact .inl ⟨rfl, at'⟩
        · exact .inr inside

end Decide

end Places

/-! ### The pieces of a path -/

/-- The pieces of the characters of a path. -/
def pieces (cs : List Char) : List PathPiece := pathPiecesWithin cs.length cs

theorem pathPiecesWithin_eq {fuel fuel' : Nat} {cs : List Char} (enough : cs.length ≤ fuel)
    (enough' : cs.length ≤ fuel') : pathPiecesWithin fuel cs = pathPiecesWithin fuel' cs := by
  induction fuel generalizing fuel' cs with
  | zero =>
    rw [List.eq_nil_of_length_eq_zero (Nat.le_zero.1 enough)]
    cases fuel' <;> rfl
  | succ fuel ih =>
    cases cs with
    | nil => cases fuel' <;> rfl
    | cons c rest =>
      rw [List.length_cons] at enough enough'
      cases fuel' with
      | zero => omega
      | succ fuel' =>
        rw [pathPiecesWithin, pathPiecesWithin]
        split
        · next name after found =>
          split at found
          · obtain ⟨rfl, -⟩ := placeholder?_eq_some_iff.1 found
            rw [List.length_append, List.length_cons] at enough enough'
            exact congrArg _ (ih (by omega) (by omega))
          · cases found
        · exact congrArg _ (ih (by omega) (by omega))

theorem pieces_placeholder {name : List Char} (placeholder : IsPlaceholder name)
    (after : List Char) :
    pieces ('\x7b' :: (name ++ '\x7d' :: after)) = .placeholder name :: pieces after := by
  have found : placeholder? (name ++ '\x7d' :: after) = some (name, after) :=
    placeholder?_eq_some_iff.2 ⟨rfl, placeholder⟩
  rw [pieces, List.length_cons, pathPiecesWithin, if_pos rfl, found]
  exact congrArg _ (pathPiecesWithin_eq (by simp; omega) (Nat.le_refl _))

theorem pieces_cons {c : Char} {rest : List Char}
    (none : ¬AtPlaceholder (fun _ => True) (c :: rest)) :
    pieces (c :: rest) = consText c (pieces rest) := by
  rw [pieces, List.length_cons, pathPiecesWithin]
  split
  · next name after found =>
    split at found
    · next same =>
      subst same
      exact absurd (atPlaceholder_iff.2 ⟨_, name, after, rfl, found, trivial⟩) none
    · cases found
  · rfl

/-! ### The split of a path -/

/-- Whether characters are the wire name of a parameter. -/
def IsParameter (parameters : List (String × String)) (name : List Char) : Prop :=
  String.ofList name ∈ parameters.map (·.1)

instance (parameters : List (String × String)) : DecidablePred (IsParameter parameters) :=
  fun name => inferInstanceAs (Decidable (String.ofList name ∈ parameters.map (·.1)))

/-- A placeholder of a parameter in a path, with its identifier and the text behind it. -/
structure Segment where
  name : String
  identifier : String
  text : List Char

/-- The characters of text and the segments behind it. -/
def joined (head : List Char) (segments : List Segment) : List Char :=
  head ++ segments.flatMap fun s => '\x7b' :: (s.name.toList ++ '\x7d' :: s.text)

/-- Whether characters are split at the placeholders of parameters, and at all of them. -/
structure IsSplit (parameters : List (String × String)) (cs head : List Char)
    (segments : List Segment) : Prop where
  whole : cs = joined head segments
  named : ∀ s ∈ segments, IsPlaceholder s.name.toList ∧ (s.name, s.identifier) ∈ parameters
  head_free : ¬Holds (IsParameter parameters) head
  text_free : ∀ s ∈ segments, ¬Holds (IsParameter parameters) s.text

section Split

variable {parameters : List (String × String)} {c : Char} {cs head : List Char}
  {segments : List Segment}

theorem head?_joined_nil (segments : List Segment) :
    joined [] segments = [] ∨ ∃ rest, joined [] segments = '\x7b' :: rest := by
  cases segments with
  | nil => exact .inl rfl
  | cons s segments => exact .inr ⟨_, rfl⟩

/-- A placeholder that begins in text without one does not end behind the text. -/
theorem not_atPlaceholder_of_free {p : List Char → Prop} (free : ¬Holds p (c :: head)) :
    ¬AtPlaceholder p (c :: joined head segments) := by
  rintro ⟨name, after, same, placeholder, named⟩
  obtain ⟨rfl, inside⟩ := List.cons.inj same
  have split : head ++ joined [] segments = name ++ '\x7d' :: after := inside
  rcases List.append_eq_append_iff.1 split with ⟨more, name_eq, others⟩ | ⟨more, head_eq, others⟩
  · rcases head?_joined_nil segments with none | ⟨rest, begins⟩
    · rw [none] at others
      simp at others
    · rw [begins] at others
      cases more with
      | nil => cases others
      | cons d more =>
        obtain ⟨rfl, -⟩ := List.cons.inj others
        exact placeholder.2.1 (by simp [name_eq])
  · cases more with
    | nil =>
      rcases head?_joined_nil segments with none | ⟨rest, begins⟩
      · rw [none] at others
        cases others
      · rw [begins] at others
        cases others
    | cons d more =>
      obtain ⟨rfl, -⟩ := List.cons.inj others
      exact free (.here ⟨name, more, by rw [head_eq], placeholder, named⟩)

theorem not_holds_nil {p : List Char → Prop} : ¬Holds p [] := by
  rintro (⟨name, after, same, -⟩ | _)
  cases same

theorem Holds.exists_name {p : List Char → Prop} (h : Holds p cs) : ∃ name, p name := by
  induction h with
  | here at' =>
    obtain ⟨name, -, -, -, h⟩ := at'
    exact ⟨name, h⟩
  | there _ _ ih => exact ih

theorem exists_isSplit (parameters : List (String × String)) (cs : List Char) :
    ∃ head segments, IsSplit parameters cs head segments := by
  by_cases at' : AtPlaceholder (IsParameter parameters) cs
  · obtain ⟨name, after, rfl, placeholder, named⟩ := at'
    obtain ⟨pair, listed, same⟩ := List.mem_map.1 named
    obtain ⟨head, segments, split⟩ := exists_isSplit parameters after
    refine ⟨[], ⟨pair.1, pair.2, head⟩ :: segments, ?_, ?_, not_holds_nil, ?_⟩
    · rw [split.whole, same]
      simp [joined]
    · rw [List.forall_mem_cons, same, String.toList_ofList]
      exact ⟨⟨placeholder, same ▸ listed⟩, split.named⟩
    · exact List.forall_mem_cons.2 ⟨split.head_free, split.text_free⟩
  · cases cs with
    | nil => exact ⟨[], [], rfl, List.forall_mem_nil _, not_holds_nil, List.forall_mem_nil _⟩
    | cons c rest =>
      obtain ⟨head, segments, split⟩ := exists_isSplit parameters rest
      refine ⟨c :: head, segments, congrArg _ split.whole, split.named, ?_, split.text_free⟩
      rintro (⟨name, after, same, placeholder, named⟩ | ⟨-, inside⟩)
      · obtain ⟨rfl, rfl⟩ := List.cons.inj same
        refine at' ⟨name, after ++ joined [] segments, ?_, placeholder, named⟩
        rw [split.whole]
        simp [joined]
      · exact split.head_free inside
termination_by cs.length
decreasing_by
  · simp_all; omega
  · simp_all

end Split

end ClientGen.Source
