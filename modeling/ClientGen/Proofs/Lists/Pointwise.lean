import Mathlib.Data.List.Forall2

/-!
# Lists that correspond

Lists whose members are related one by one: each member has one that it is related to
(`exists_of_forall₂_left`, `exists_of_forall₂_right`), and the values of steps that are taken for a
list correspond to it (`forall₂_of_mapM`). Steps that may fail are taken apart by `bind_eq_ok_iff`.
Lists of values that are told apart alike are without duplicates alike (`nodup_map_congr`), and lists
that are ordered alike correspond after they are sorted (`forall₂_mergeSort`).
-/

namespace ClientGen

/-- A step that follows another ends in a value if both do. -/
theorem bind_eq_ok_iff {ε α β : Type} {x : Except ε α} {f : α → Except ε β} {b : β} :
    (x >>= f) = .ok b ↔ ∃ a, x = .ok a ∧ f a = .ok b := by
  cases x with
  | error e => exact ⟨nofun, nofun⟩
  | ok a => exact ⟨fun ended => ⟨a, rfl, ended⟩, fun ⟨_, same, ended⟩ => Except.ok.inj same ▸ ended⟩

theorem map_eq_ok_iff {ε α β : Type} {x : Except ε α} {f : α → β} {b : β} :
    x.map f = .ok b ↔ ∃ a, x = .ok a ∧ f a = b := by
  cases x with
  | error e => exact ⟨nofun, nofun⟩
  | ok a => simp [Except.map]

theorem exists_eq_ok {ε α : Type} {x : Except ε α} (ended : x.isOk = true) : ∃ a, x = .ok a := by
  cases x with
  | error e => cases ended
  | ok a => exact ⟨a, rfl⟩

/-- Steps that all end in a value, one after the other. -/
theorem forall₂_of_mapM {ε α β : Type} {f : α → Except ε β} {as : List α} {bs : List β}
    (ended : as.mapM f = .ok bs) : List.Forall₂ (fun a b => f a = .ok b) as bs := by
  induction as generalizing bs with
  | nil =>
    cases ended
    exact .nil
  | cons a rest ih =>
    rw [List.mapM_cons] at ended
    obtain ⟨b, head, ended⟩ := bind_eq_ok_iff.1 ended
    obtain ⟨others, tail, ended⟩ := bind_eq_ok_iff.1 ended
    cases ended
    exact .cons head (ih tail)

theorem exists_of_forall₂_left {α β : Type} {R : α → β → Prop} {as : List α} {bs : List β}
    (h : List.Forall₂ R as bs) {a : α} (mem : a ∈ as) : ∃ b ∈ bs, R a b := by
  induction h with
  | nil => exact absurd mem List.not_mem_nil
  | @cons a' b' as bs head tail ih =>
    rcases List.mem_cons.1 mem with rfl | mem
    · exact ⟨b', List.mem_cons_self, head⟩
    · obtain ⟨b, member, related⟩ := ih mem
      exact ⟨b, List.mem_cons_of_mem _ member, related⟩

theorem exists_of_forall₂_right {α β : Type} {R : α → β → Prop} {as : List α} {bs : List β}
    (h : List.Forall₂ R as bs) {b : β} (mem : b ∈ bs) : ∃ a ∈ as, R a b :=
  exists_of_forall₂_left h.flip mem

/-- Members that are related one by one are members. -/
theorem forall₂_and_mem {α β : Type} {R : α → β → Prop} {as : List α} {bs : List β}
    (h : List.Forall₂ R as bs) : List.Forall₂ (fun a b => R a b ∧ a ∈ as ∧ b ∈ bs) as bs := by
  induction h with
  | nil => exact .nil
  | cons head tail ih =>
    refine .cons ⟨head, List.mem_cons_self, List.mem_cons_self⟩ (ih.imp fun _ _ h => ?_)
    exact ⟨h.1, List.mem_cons_of_mem _ h.2.1, List.mem_cons_of_mem _ h.2.2⟩

theorem forall₂_and {α β : Type} {R S : α → β → Prop} {as : List α} {bs : List β}
    (h : List.Forall₂ R as bs) (h' : List.Forall₂ S as bs) :
    List.Forall₂ (fun a b => R a b ∧ S a b) as bs := by
  induction h with
  | nil => exact .nil
  | cons head tail ih =>
    cases h' with
    | cons head' tail' => exact .cons ⟨head, head'⟩ (ih tail')

/-- Members that distinct ones are related to are distinct. -/
theorem nodup_of_forall₂ {α β γ : Type} {R : α → β → Prop} {f : α → γ} {as : List α} {bs : List β}
    (h : List.Forall₂ R as bs) (distinct : (as.map f).Nodup)
    (unique : ∀ a ∈ as, ∀ a' ∈ as, ∀ b, R a b → R a' b → f a = f a') : bs.Nodup := by
  induction h with
  | nil => exact List.nodup_nil
  | @cons a b as bs head tail ih =>
    obtain ⟨new, distinct⟩ := List.nodup_cons.1 distinct
    refine List.nodup_cons.2 ⟨fun mem => ?_, ih distinct fun a' mem a'' mem' =>
      unique a' (List.mem_cons_of_mem _ mem) a'' (List.mem_cons_of_mem _ mem')⟩
    obtain ⟨a', mem', related⟩ := exists_of_forall₂_right tail mem
    exact new (List.mem_map.2
      ⟨a', mem', unique a' (List.mem_cons_of_mem _ mem') a List.mem_cons_self b related head⟩)

theorem nodup_map_congr {α β γ : Type} {f : α → β} {g : α → γ} {as : List α}
    (same : ∀ a ∈ as, ∀ b ∈ as, f a = f b ↔ g a = g b) : (as.map f).Nodup ↔ (as.map g).Nodup := by
  rw [List.Nodup, List.Nodup, List.pairwise_map, List.pairwise_map]
  exact ⟨fun h => h.imp_of_mem fun mem mem' ne eq => ne ((same _ mem _ mem').2 eq),
    fun h => h.imp_of_mem fun mem mem' ne eq => ne ((same _ mem _ mem').1 eq)⟩

/-- Lists that are ordered alike correspond after they are sorted. -/
theorem forall₂_mergeSort {α β : Type} {R : α → β → Prop} {le : α → α → Bool} {le' : β → β → Bool}
    (alike : ∀ a b, R a b → ∀ a' b', R a' b' → le' b b' = le a a') {as : List α} {bs : List β}
    (h : List.Forall₂ R as bs) : List.Forall₂ R (as.mergeSort le) (bs.mergeSort le') := by
  -- Both lists are sides of one list of pairs, which is sorted once.
  have left : (as.zip bs).map Prod.fst = as := List.map_fst_zip (Nat.le_of_eq h.length_eq)
  have right : (as.zip bs).map Prod.snd = bs := List.map_snd_zip (Nat.le_of_eq h.length_eq.symm)
  have related : ∀ p ∈ as.zip bs, R p.1 p.2 :=
    fun p mem => (List.forall₂_iff_zip.1 h).2 mem
  generalize as.zip bs = ps at left right related
  subst left right
  have lefts : (ps.map Prod.fst).mergeSort le =
      (ps.mergeSort fun p q => le p.1 q.1).map Prod.fst := by
    symm
    exact List.map_mergeSort fun _ _ _ _ => rfl
  have rights : (ps.map Prod.snd).mergeSort le' =
      (ps.mergeSort fun p q => le p.1 q.1).map Prod.snd := by
    symm
    apply List.map_mergeSort
    intro p mem q mem'
    exact (alike _ _ (related p mem) _ _ (related q mem')).symm
  rw [lefts, rights, List.forall₂_map_left_iff, List.forall₂_map_right_iff, List.forall₂_same]
  exact fun p mem => related p (List.mem_mergeSort.1 mem)

theorem forall₂_head? {α β : Type} {R : α → β → Prop} {as : List α} {bs : List β}
    (h : List.Forall₂ R as bs) : Option.Rel R as.head? bs.head? := by
  cases h with
  | nil => exact .none
  | cons first _ => exact .some first

end ClientGen
