import ClientGen.Document.Read
import ClientGen.Proofs.Value.Keys
import Mathlib.Data.List.Induction

/-!
# How parameters are merged

Two parameters stand for the same thing if they have one name and one location (`sameParameter_iff`).
Merging keeps one of them: the last one, in the place of the first one.

Merging is done parameter by parameter. What it has come to after a part of the list (`Merges`) is
kept by one more parameter (`Merges.setParameter`), and so it holds of the whole list
(`merges_mergeParameters`).
-/

namespace ClientGen

/-! ### Members before and after others -/

section Order

variable {α β : Type} {P Q : α → Prop} {as : List α}

/-- Whether one kind of members is mentioned in a list before the other kind is. -/
def IsBefore (P Q : α → Prop) (as : List α) : Prop :=
  ∃ before a after, as = before ++ a :: after ∧ P a ∧ ∀ b ∈ before, ¬ Q b

/-- Whether a member is of the one kind in a list, and none behind it is of the other. -/
def IsLast (P Q : α → Prop) (as : List α) : Prop :=
  ∃ before a after, as = before ++ a :: after ∧ P a ∧ ∀ b ∈ after, ¬ Q b

theorem IsBefore.append (h : IsBefore P Q as) (others : List α) : IsBefore P Q (as ++ others) := by
  obtain ⟨before, a, after, rfl, here, none⟩ := h
  exact ⟨before, a, after ++ others, by simp, here, none⟩

theorem isBefore_of_forall {a : α} (mem : a ∈ as) (here : P a) (none : ∀ b ∈ as, ¬ Q b) :
    IsBefore P Q as := by
  obtain ⟨before, after, rfl⟩ := List.append_of_mem mem
  exact ⟨before, a, after, rfl, here, fun b mem => none b (List.mem_append_left _ mem)⟩

theorem IsBefore.mono {P' Q' : α → Prop} (h : IsBefore P Q as) (imp : ∀ a, P a → P' a)
    (imp' : ∀ a, Q' a → Q a) : IsBefore P' Q' as := by
  obtain ⟨before, a, after, same, here, none⟩ := h
  exact ⟨before, a, after, same, imp a here, fun b mem other => none b mem (imp' b other)⟩

theorem isLast_concat (Q : α → Prop) (as : List α) (a : α) : IsLast (· = a) Q (as ++ [a]) :=
  ⟨as, a, [], rfl, rfl, List.forall_mem_nil _⟩

theorem IsLast.concat (h : IsLast P Q as) {a : α} (other : ¬ Q a) : IsLast P Q (as ++ [a]) := by
  obtain ⟨before, b, after, rfl, here, none⟩ := h
  refine ⟨before, b, after ++ [a], by simp, here, fun c mem => ?_⟩
  rcases List.mem_append.1 mem with old | new
  · exact none c old
  · rwa [List.mem_singleton.1 new]

theorem IsLast.exists_mem (h : IsLast P Q as) : ∃ a ∈ as, P a := by
  obtain ⟨before, a, after, rfl, here, -⟩ := h
  exact ⟨a, by simp, here⟩

end Order

namespace Document

/-! ### Parameters that stand for the same thing -/

section Same

variable {p q r : Parameter}

theorem sameParameter_iff : sameParameter p q = true ↔
    p.name = q.name ∧ p.location.same q.location = true := by
  rw [sameParameter, Bool.and_eq_true, beq_iff_eq]

theorem sameParameter_refl (p : Parameter) : sameParameter p p = true :=
  sameParameter_iff.2 ⟨rfl, Key.same_refl _⟩

theorem sameParameter_symm (h : sameParameter p q = true) : sameParameter q p = true := by
  rw [sameParameter_iff] at h ⊢
  exact ⟨h.1.symm, Key.same_symm h.2⟩

theorem sameParameter_trans (h : sameParameter p q = true) (h' : sameParameter q r = true) :
    sameParameter p r = true := by
  rw [sameParameter_iff] at h h' ⊢
  exact ⟨h.1.trans h'.1, Key.same_trans h.2 h'.2⟩

end Same

/-! ### Merging -/

/-- What merging has come to after a list of parameters. -/
structure Merges (ps merged : List Parameter) : Prop where
  distinct : merged.Pairwise fun p q => ¬ sameParameter p q = true
  covers : ∀ p ∈ ps, ∃ q ∈ merged, sameParameter q p = true
  last : ∀ p ∈ merged, IsLast (· = p) (sameParameter · p = true) ps
  ordered : merged.Pairwise fun p q =>
    IsBefore (sameParameter · p = true) (sameParameter · q = true) ps

section Merging

variable {ps merged : List Parameter}

/-- A parameter goes to the end, or takes the place of the one that stands for the same thing. -/
theorem setParameter_cases (p : Parameter) (merged : List Parameter) :
    (∀ q ∈ merged, ¬ sameParameter q p = true) ∧ setParameter p merged = merged ++ [p] ∨
    ∃ before q after, merged = before ++ q :: after ∧ sameParameter q p = true ∧
      setParameter p merged = before ++ p :: after := by
  induction merged with
  | nil => exact .inl ⟨List.forall_mem_nil _, rfl⟩
  | cons q rest ih =>
    rw [setParameter]
    by_cases here : sameParameter q p = true
    · rw [if_pos here]
      exact .inr ⟨[], q, rest, rfl, here, rfl⟩
    · rw [if_neg here]
      rcases ih with ⟨none, added⟩ | ⟨before, q', after, rfl, same, replaced⟩
      · exact .inl ⟨List.forall_mem_cons.2 ⟨here, none⟩, by rw [added, List.cons_append]⟩
      · exact .inr ⟨q :: before, q', after, rfl, same, by rw [replaced, List.cons_append]⟩

/-- A member may be replaced by one that is related to the others as it is. -/
theorem pairwise_replace {α : Type} {R : α → α → Prop} {before after : List α} {a b : α}
    (h : (before ++ a :: after).Pairwise R) (left : ∀ c, R a c → R b c)
    (right : ∀ c, R c a → R c b) :
    (before ++ b :: after).Pairwise R := by
  rw [List.pairwise_append, List.pairwise_cons] at h ⊢
  obtain ⟨front, ⟨here, back⟩, across⟩ := h
  refine ⟨front, ⟨fun c mem => left c (here c mem), back⟩, fun c mem d mem' => ?_⟩
  rcases List.mem_cons.1 mem' with rfl | mem'
  · exact right c (across c mem a List.mem_cons_self)
  · exact across c mem d (List.mem_cons_of_mem _ mem')

theorem Merges.nil : Merges [] [] :=
  ⟨.nil, List.forall_mem_nil _, List.forall_mem_nil _, .nil⟩

/-- A parameter that stands for nothing that was mentioned before. -/
theorem Merges.add (h : Merges ps merged) {p : Parameter}
    (new : ∀ q ∈ merged, ¬ sameParameter q p = true) : Merges (ps ++ [p]) (merged ++ [p]) where
  distinct := by
    refine List.pairwise_append.2 ⟨h.distinct, List.pairwise_singleton _ _, fun q mem r same => ?_⟩
    rw [List.mem_singleton.1 same]
    exact new q mem
  covers := by
    intro q mem
    rcases List.mem_append.1 mem with old | here
    · obtain ⟨r, listed, same⟩ := h.covers q old
      exact ⟨r, List.mem_append_left _ listed, same⟩
    · rw [List.mem_singleton.1 here]
      exact ⟨p, List.mem_concat_self, sameParameter_refl p⟩
  last := by
    intro q mem
    rcases List.mem_append.1 mem with old | here
    · exact (h.last q old).concat fun same => new q old (sameParameter_symm same)
    · rw [List.mem_singleton.1 here]
      exact isLast_concat _ ps _
  ordered := by
    refine List.pairwise_append.2 ⟨h.ordered.imp fun first => first.append [p],
      List.pairwise_singleton _ _, fun q mem r same => ?_⟩
    obtain ⟨_, mentioned, rfl⟩ := (h.last q mem).exists_mem
    rw [List.mem_singleton.1 same]
    refine IsBefore.append (isBefore_of_forall mentioned (sameParameter_refl _) ?_) [p]
    intro s there other
    obtain ⟨r, listed, covered⟩ := h.covers s there
    exact new r listed (sameParameter_trans covered other)

/-- A parameter that stands for the same thing as one that was mentioned before. -/
theorem Merges.replace {before after : List Parameter} {p q : Parameter}
    (h : Merges ps (before ++ q :: after)) (same : sameParameter q p = true) :
    Merges (ps ++ [p]) (before ++ p :: after) := by
  have back := sameParameter_symm same
  have kept : (before ++ p :: after).Pairwise fun p q => ¬ sameParameter p q = true :=
    pairwise_replace h.distinct (fun r other here => other (sameParameter_trans same here))
      fun r other here => other (sameParameter_trans here back)
  refine ⟨kept, ?covers, ?last, ?ordered⟩
  case covers =>
    intro r mem
    rcases List.mem_append.1 mem with old | here
    · obtain ⟨s, listed, covered⟩ := h.covers r old
      rcases List.mem_append.1 listed with front | later
      · exact ⟨s, List.mem_append_left _ front, covered⟩
      · rcases List.mem_cons.1 later with rfl | behind
        · exact ⟨p, by simp, sameParameter_trans back covered⟩
        · exact ⟨s, by simp [behind], covered⟩
    · rw [List.mem_singleton.1 here]
      exact ⟨p, by simp, sameParameter_refl p⟩
  case last =>
    intro r mem
    obtain ⟨front, ⟨here, -⟩, across⟩ :=
      (List.pairwise_append.1 kept).imp_right (And.imp_left List.pairwise_cons.1)
    rcases List.mem_append.1 mem with old | later
    · have other := across r old p List.mem_cons_self
      exact (h.last r (by simp [old])).concat fun same' => other (sameParameter_symm same')
    · rcases List.mem_cons.1 later with rfl | behind
      · exact isLast_concat _ ps _
      · exact (h.last r (by simp [behind])).concat (here r behind)
  case ordered =>
    refine (pairwise_replace h.ordered (fun r first => ?_) fun r first => ?_).imp
      fun first => first.append [p]
    · exact first.mono (fun s here => sameParameter_trans here same) fun _ => id
    · exact first.mono (fun _ => id) fun s here => sameParameter_trans here back

/-- One more parameter keeps what merging has come to. -/
theorem Merges.setParameter (h : Merges ps merged) (p : Parameter) :
    Merges (ps ++ [p]) (setParameter p merged) := by
  rcases setParameter_cases p merged with ⟨new, added⟩ | ⟨before, q, after, rfl, same, replaced⟩
  · rw [added]
    exact h.add new
  · rw [replaced]
    exact h.replace same

theorem merges_mergeParameters (ps : List Parameter) : Merges ps (mergeParameters ps) := by
  induction ps using List.reverseRecOn with
  | nil => exact .nil
  | append_singleton ps p ih =>
    rw [mergeParameters, List.foldl_append]
    exact ih.setParameter p

end Merging

end Document

end ClientGen
