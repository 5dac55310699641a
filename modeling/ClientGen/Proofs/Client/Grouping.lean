import ClientGen.Client.ApiClass
import ClientGen.Proofs.Lists.Lookup
import ClientGen.Proofs.Package.Files
import Mathlib.Data.List.Induction

/-!
# Operations by their tags

Operations are put into groups one by one, and tag by tag: an operation goes to the end of a group
unless one that is there counts as the same. In what way operations are compared does not matter
where none of them counts as another one (`AreApart`): then a tag has the operations that carry it,
each of them once and in document order, also when they carry it several times
(`groupsByTag_eq`).

Groups are kept in a list of pairs. Adding an operation to the groups of its tags changes the groups
of these tags and no other (`lookup_addToGroups`), from which it follows what the groups are after
any number of operations (`lookup_groupsAfter`).
-/

namespace ClientGen

/-- Names are sorted to the one list that has them in ascending order. -/
theorem sortedNames_eq {names sorted : List String}
    (ascending : sorted.Pairwise fun s t => Text.lt s t = true)
    (same : ∀ n, n ∈ sorted ↔ n ∈ names) : sortedNames names = sorted := by
  have distinct : sorted.Nodup := ascending.imp fun {s t} before equal => by
    rw [Text.lt, Text.compare_eq_iff_eq.2 equal] at before
    cases before
  have perm : (sortedNames names).Perm sorted :=
    (List.perm_ext_iff_of_nodup (nodup_sortedNames names) distinct).2 fun n => by
      rw [mem_sortedNames, same]
  refine perm.eq_of_pairwise (fun s t _ _ before behind => ?_) (pairwise_sortedNames names)
    ascending
  rw [Text.lt] at before behind
  cases order : Text.compare s t with
  | lt =>
    rw [Text.compare_swap, order] at behind
    cases behind
  | eq => exact Text.compare_eq_iff_eq.1 order
  | gt =>
    rw [order] at before
    cases before

/-- Which names there are decides how they are sorted. -/
theorem sortedNames_congr {names names' : List String} (same : ∀ n, n ∈ names ↔ n ∈ names') :
    sortedNames names = sortedNames names' :=
  sortedNames_eq (pairwise_sortedNames names') fun n => by rw [mem_sortedNames, same]

namespace Client

/-- Operations by tags. -/
abbrev Groups := List (String × List Operation)

/-- The operations in the group of a tag. -/
def groupOf (groups : Groups) (tag : String) : List Operation := (groups.lookup tag).getD []

section Grouping

variable (same : Operation → Operation → Bool)

/-- Adds an operation to the group of a tag, unless one that is there counts as the same. -/
def addTo (o : Operation) (groups : Groups) (tag : String) : Groups :=
  Schema.setPair tag (if (groupOf groups tag).any (same · o) then groupOf groups tag
    else groupOf groups tag ++ [o]) groups

/-- Adds an operation to the groups of its tags. -/
def addToGroups (groups : Groups) (o : Operation) : Groups := (tagsOf o).foldl (addTo same o) groups

/-- The groups after a number of operations. -/
def groupsAfter (operations : List Operation) : Groups := operations.foldl (addToGroups same) []

/-- The groups of operations in ascending order of their tags. -/
def groupsByTag (operations : List Operation) : Groups :=
  let groups := groupsAfter same operations
  (sortedNames (groups.map (·.1))).map fun tag => (tag, groupOf groups tag)

/-- Whether every operation counts as itself, and none as one before it. -/
structure AreApart (operations : List Operation) : Prop where
  own : ∀ o ∈ operations, same o o = true
  apart : operations.Pairwise fun o o' => same o o' = false

variable {same}

theorem lookup_addTo (o : Operation) (groups : Groups) (tag other : String) :
    (addTo same o groups tag).lookup other =
      if other = tag then some (if (groupOf groups tag).any (same · o) then groupOf groups tag
        else groupOf groups tag ++ [o])
      else groups.lookup other :=
  lookup_setPair ..

/-- Adding an operation to the groups of tags changes these groups and no other. A tag that is listed
twice makes no difference: the second time the operation is there. -/
theorem lookup_foldl_addTo {o : Operation} (own : same o o = true) {groups : Groups}
    (new : ∀ tag, ∀ o' ∈ groupOf groups tag, same o' o = false) (tags : List String)
    (tag : String) :
    (tags.foldl (addTo same o) groups).lookup tag =
      if tag ∈ tags then some (groupOf groups tag ++ [o]) else groups.lookup tag := by
  induction tags using List.reverseRecOn generalizing tag with
  | nil => rfl
  | append_singleton tags last ih =>
    rw [List.foldl_append, List.foldl_cons, List.foldl_nil, lookup_addTo, groupOf, ih last]
    by_cases here : tag = last
    · subst here
      rw [if_pos rfl, if_pos (List.mem_append_right _ List.mem_cons_self)]
      by_cases earlier : tag ∈ tags
      · rw [if_pos earlier, Option.getD_some, if_pos (by simp [own])]
      · have none : (groupOf groups tag).any (same · o) = false := by
          simpa using new tag
        rw [if_neg earlier]
        change some (if (groupOf groups tag).any (same · o) = true then _ else _) = _
        rw [none]
        rfl
    · rw [if_neg here, ih tag]
      simp [here]

theorem lookup_addToGroups {o : Operation} (own : same o o = true) {groups : Groups}
    (new : ∀ tag, ∀ o' ∈ groupOf groups tag, same o' o = false) (tag : String) :
    (addToGroups same groups o).lookup tag =
      if tag ∈ tagsOf o then some (groupOf groups tag ++ [o]) else groups.lookup tag :=
  lookup_foldl_addTo own new (tagsOf o) tag

/-- The operations that carry a tag. -/
def tagged (operations : List Operation) (tag : String) : List Operation :=
  operations.filter fun o => (tagsOf o).contains tag

theorem mem_tagged_iff {operations : List Operation} {tag : String} {o : Operation} :
    o ∈ tagged operations tag ↔ o ∈ operations ∧ tag ∈ tagsOf o := by
  rw [tagged, List.mem_filter, List.contains_iff_mem]

/-- Every operation carries a tag. -/
theorem exists_mem_tagsOf (o : Operation) : ∃ tag, tag ∈ tagsOf o := by
  unfold tagsOf
  split
  · exact ⟨defaultTag, List.mem_cons_self⟩
  · next some => exact List.exists_mem_of_ne_nil _ fun none => some (List.isEmpty_iff.2 none)

theorem mem_operationsByTag_iff {d : Document} {tag : String} {operations : List Operation} :
    (tag, operations) ∈ operationsByTag d ↔
      (∃ o ∈ d.operations, tag ∈ tagsOf o) ∧ operations = tagged d.operations tag := by
  rw [operationsByTag, List.mem_map]
  simp only [mem_sortedNames, List.mem_flatMap, Prod.mk.injEq]
  constructor
  · rintro ⟨tag, carried, rfl, rfl⟩
    exact ⟨carried, rfl⟩
  · rintro ⟨carried, rfl⟩
    exact ⟨tag, carried, rfl, rfl⟩

/-- The group of a tag has the operations that carry it. -/
theorem lookup_groupsAfter {operations : List Operation} (h : AreApart same operations)
    (tag : String) :
    (groupsAfter same operations).lookup tag =
      if tag ∈ operations.flatMap tagsOf then some (tagged operations tag) else none := by
  induction operations using List.reverseRecOn generalizing tag with
  | nil => rfl
  | append_singleton operations o ih =>
    obtain ⟨own, apart⟩ := h
    obtain ⟨apart, -, across⟩ := List.pairwise_append.1 apart
    have before := ih ⟨fun o' mem => own o' (List.mem_append_left _ mem), apart⟩
    have group (tag : String) :
        groupOf (groupsAfter same operations) tag = tagged operations tag := by
      rw [groupOf, before]
      split
      · rfl
      · next absent =>
        symm
        refine List.filter_eq_nil_iff.2 fun o' mem carries => absent ?_
        exact List.mem_flatMap.2 ⟨o', mem, List.contains_iff_mem.1 carries⟩
    have new : ∀ tag, ∀ o' ∈ groupOf (groupsAfter same operations) tag, same o' o = false := by
      intro tag o' mem
      rw [group] at mem
      exact across o' (List.mem_of_mem_filter mem) o List.mem_cons_self
    rw [groupsAfter, List.foldl_append, List.foldl_cons, List.foldl_nil]
    refine (lookup_addToGroups (own o List.mem_concat_self) new tag).trans ?_
    rw [group, before]
    by_cases carries : tag ∈ tagsOf o
    · simp [carries, tagged]
    · simp [carries, tagged]

/-- **Groups are the operations that carry a tag**, in ascending order of the tags. -/
theorem groupsByTag_eq {d : Document} (h : AreApart same d.operations) :
    groupsByTag same d.operations = operationsByTag d := by
  have found := lookup_groupsAfter h
  have tags (tag : String) : tag ∈ (groupsAfter same d.operations).map (·.1) ↔
      tag ∈ d.operations.flatMap tagsOf := by
    rw [mem_keys_iff_isSome_lookup, found]
    split <;> simp [*]
  rw [groupsByTag, operationsByTag, sortedNames_congr tags]
  refine List.map_congr_left fun tag mem => ?_
  rw [mem_sortedNames] at mem
  rw [groupOf, found, if_pos mem]
  rfl

end Grouping

end Client

end ClientGen
