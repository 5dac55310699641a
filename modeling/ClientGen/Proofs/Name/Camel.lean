import Mathlib.Data.List.SplitBy
import ClientGen.Proofs.Name.Spelling

/-!
# Names in camel case

A capital tells where a word begins, so a name of letters in camel case is put together from one
list of words only (`words_eq_of_camel_eq`). From this, which names become a given parameter name is
known by their words (`valueName_eq_iff`).
-/

namespace ClientGen.Name

/-! ### Small and capital letters -/

theorem isAlphanum_of_isAlpha {c : Char} (h : c.isAlpha = true) : c.isAlphanum = true := by
  rw [Char.isAlphanum, h, Bool.true_or]

theorem isUpper_toLower {c : Char} (h : c.isAlphanum = true) : c.toLower.isUpper = false :=
  (caseFacts_of_isAlphanum h).upper_toLower

theorem toLower_of_isUpper_eq_false {c : Char} (h : c.isAlphanum = true)
    (small : c.isUpper = false) : c.toLower = c :=
  (caseFacts_of_isAlphanum h).toLower_eq_iff.2 small

/-! ### Words -/

/-- Words as a name is cut into: none is empty, and all are in small letters and digits. -/
structure AreWords (ws : List (List Char)) : Prop where
  filled : ∀ w ∈ ws, w ≠ []
  alphanum : ∀ w ∈ ws, ∀ c ∈ w, c.isAlphanum = true
  small : ∀ w ∈ ws, ∀ c ∈ w, c.isUpper = false

theorem areWords_words (cs : List Char) : AreWords (words cs) where
  filled w mem := by
    obtain ⟨piece, kept, rfl⟩ := List.mem_map.1 mem
    have filled := (List.mem_filter.1 kept).2
    simpa using filled
  alphanum w mem c here := isAlphanum_of_mem_words mem here
  small w mem c here := by
    obtain ⟨piece, kept, rfl⟩ := List.mem_map.1 mem
    obtain ⟨d, inside, rfl⟩ := List.mem_map.1 here
    have cut := not_of_mem_splitWhere (List.mem_filter.1 kept).1 inside
    exact isUpper_toLower (by simpa using cut)

/-- Words as they stand in camel case: all but the first begin with a capital. -/
def camelParts : List (List Char) → List (List Char)
  | [] => []
  | first :: rest => first :: rest.map capitalize

theorem toList_camel (s : String) :
    (camel s).toList = (camelParts (words s.toList)).flatten := by
  unfold camel
  split
  · next none =>
    rw [none]
    rfl
  · next first rest split =>
    rw [split, String.toList_ofList, camelParts, List.flatten_cons, List.flatMap_def]

theorem map_toLower_capitalize {w : List Char} (h : ∀ c ∈ w, c.isAlphanum = true) :
    (capitalize w).map Char.toLower = w.map Char.toLower := by
  cases w with
  | nil => rfl
  | cons c rest =>
    have cased := caseFacts_of_isAlphanum (h c List.mem_cons_self)
    rw [capitalize, List.map_cons, List.map_cons, cased.toLower_toUpper]

/-- A word stays as it is when it is made small. -/
theorem AreWords.map_toLower {ws : List (List Char)} (h : AreWords ws) :
    ∀ w ∈ ws, w.map Char.toLower = w := by
  intro w mem
  have each : ∀ c ∈ w, c.toLower = c := fun c here =>
    toLower_of_isUpper_eq_false (h.alphanum w mem c here) (h.small w mem c here)
  exact (List.map_congr_left each).trans (List.map_id' w)

/-- In small letters, the parts of a name in camel case are its words. -/
theorem map_toLower_camelParts {ws : List (List Char)} (h : AreWords ws) :
    (camelParts ws).map (·.map Char.toLower) = ws := by
  have same := h.map_toLower
  cases ws with
  | nil => rfl
  | cons first rest =>
    have others : ∀ w ∈ rest, (capitalize w).map Char.toLower = w := by
      intro w mem
      have listed := List.mem_cons_of_mem first mem
      rw [map_toLower_capitalize (h.alphanum w listed), same w listed]
    rw [camelParts, List.map_cons, List.map_map, same first List.mem_cons_self]
    exact congrArg _ ((List.map_congr_left others).trans (List.map_id' rest))

/-- The words of a name in camel case are made of letters if the name is. -/
theorem isAlpha_of_camelParts {ws : List (List Char)} (h : AreWords ws)
    (letters : ∀ c ∈ (camelParts ws).flatten, c.isAlpha = true) :
    ∀ w ∈ ws, ∀ c ∈ w, c.isAlpha = true := by
  cases ws with
  | nil => nofun
  | cons first rest =>
    rw [camelParts, List.flatten_cons] at letters
    intro w mem c here
    rcases List.mem_cons.1 mem with rfl | inside
    · exact letters c (List.mem_append_left _ here)
    · have part : ∀ d ∈ capitalize w, d.isAlpha = true := fun d within =>
        letters d (List.mem_append_right _
          (List.mem_flatten.2 ⟨capitalize w, List.mem_map_of_mem inside, within⟩))
      cases w with
      | nil => exact absurd here List.not_mem_nil
      | cons d others =>
        rcases List.mem_cons.1 here with rfl | here
        · exact (caseFacts_of_isAlphanum (h.alphanum _ mem c List.mem_cons_self)).alpha_of_toUpper
            (part _ List.mem_cons_self)
        · exact part c (List.mem_cons_of_mem _ here)

/-- No capital stands behind the first letter of a capitalized word. -/
theorem isChain_capitalize {w : List Char} (small : ∀ c ∈ w, c.isUpper = false) :
    (capitalize w).IsChain fun _ d => (!d.isUpper) = true := by
  cases w with
  | nil => exact .nil
  | cons c rest =>
    obtain ⟨-, others⟩ := List.forall_mem_cons.1 small
    refine List.Pairwise.isChain (List.pairwise_cons.2 ⟨fun d mem => ?_, ?_⟩)
    · rw [others d mem, Bool.not_false]
    · exact List.pairwise_of_forall_mem_list fun d _ e mem => by rw [others e mem, Bool.not_false]

/-- A name of letters in camel case, cut before each capital. -/
theorem splitBy_camelParts {ws : List (List Char)} (h : AreWords ws)
    (letters : ∀ w ∈ ws, ∀ c ∈ w, c.isAlpha = true) :
    (camelParts ws).flatten.splitBy (fun _ d => !d.isUpper) = camelParts ws := by
  cases ws with
  | nil => rfl
  | cons first rest =>
    obtain ⟨filled, filled'⟩ := List.forall_mem_cons.1 h.filled
    obtain ⟨small, small'⟩ := List.forall_mem_cons.1 h.small
    obtain ⟨-, letters'⟩ := List.forall_mem_cons.1 letters
    have begins : ∀ part ∈ rest.map capitalize, ∃ filled : part ≠ [],
        (!(part.head filled).isUpper) = false := by
      refine List.forall_mem_map.2 fun w mem => ?_
      obtain ⟨c, others, rfl⟩ := List.exists_cons_of_ne_nil (filled' w mem)
      have letter := letters' _ mem c List.mem_cons_self
      have capital : c.toUpper.isUpper = true :=
        (caseFacts_of_isAlphanum (isAlphanum_of_isAlpha letter)).upper_toUpper letter
      refine ⟨List.cons_ne_nil _ _, ?_⟩
      change (!c.toUpper.isUpper) = false
      rw [capital, Bool.not_true]
    rw [camelParts]
    refine List.splitBy_flatten ?filled ?within ?between
    case filled =>
      intro mem
      rcases List.mem_cons.1 mem with none | mem
      · exact filled none.symm
      · obtain ⟨some, -⟩ := begins [] mem
        exact some rfl
    case within =>
      refine List.forall_mem_cons.2 ⟨?_, List.forall_mem_map.2 fun w mem =>
        isChain_capitalize (small' w mem)⟩
      exact (List.pairwise_of_forall_mem_list fun c _ d mem => by
        rw [small d mem, Bool.not_false]).isChain
    case between =>
      refine (List.pairwise_cons.2 ⟨fun part mem => ?_, ?_⟩).isChain
      · exact ⟨filled, begins part mem⟩
      · refine List.pairwise_of_forall_mem_list fun part mem next mem' => ?_
        obtain ⟨some, -⟩ := begins part mem
        exact ⟨some, begins next mem'⟩

/-- **A name of letters in camel case tells its words.** -/
theorem words_eq_of_camel_eq {s t : String} (letters : ∀ c ∈ (camel s).toList, c.isAlpha = true)
    (same : camel s = camel t) : words s.toList = words t.toList := by
  have read {r : String} (letters : ∀ c ∈ (camel r).toList, c.isAlpha = true) :
      ((camel r).toList.splitBy fun _ d => !d.isUpper).map (·.map Char.toLower) =
        words r.toList := by
    have h := areWords_words r.toList
    rw [toList_camel] at letters ⊢
    rw [splitBy_camelParts h (isAlpha_of_camelParts h letters), map_toLower_camelParts h]
  rw [← read letters, ← read (same ▸ letters), same]

theorem camel_congr {s t : String} (h : words s.toList = words t.toList) : camel s = camel t := by
  rw [camel, camel, h]

/-! ### Parameters -/

/-- A name in camel case, of letters, that parameters get from their words alone. -/
structure IsSpelled (name : String) : Prop where
  camelled : camel name = name
  letters : name.toList.all Char.isAlpha = true
  filled : name ≠ ""
  free : name ∉ reservedWords
  meant : name ≠ "param"

instance (name : String) : Decidable (IsSpelled name) :=
  decidable_of_iff (camel name = name ∧ name.toList.all Char.isAlpha = true ∧ name ≠ "" ∧
    name ∉ reservedWords ∧ name ≠ "param")
    ⟨fun ⟨a, b, c, d, e⟩ => ⟨a, b, c, d, e⟩, fun ⟨a, b, c, d, e⟩ => ⟨a, b, c, d, e⟩⟩

/-- A parameter gets such a name exactly if its own name has the same words. -/
theorem valueName_eq_iff {name : String} (h : IsSpelled name) (s : String) :
    valueName s = name ↔ words s.toList = words name.toList := by
  have letters : ∀ c ∈ name.toList, c.isAlpha = true := List.all_eq_true.1 h.letters
  have noMark : '_' ∉ name.toList := fun mem => absurd (letters _ mem) (by decide)
  constructor
  · intro same
    suffices camelled : camel s = name by
      refine words_eq_of_camel_eq ?_ (camelled.trans h.camelled.symm)
      rwa [camelled]
    unfold valueName at same
    dsimp only at same
    split at same
    · exact absurd same.symm h.meant
    · unfold guardDigit at same
      split at same
      · split at same
        · exact absurd (by simp [← same]) noMark
        · exact absurd (by simp [← same]) noMark
      · split at same
        · exact absurd (by simp [← same]) noMark
        · exact same
  · intro same
    have camelled : camel s = name := (camel_congr same).trans h.camelled
    have first : name.toList.head?.any Char.isDigit = false := by
      cases split : name.toList with
      | nil => rfl
      | cons c rest =>
        have letter := letters c (split ▸ List.mem_cons_self)
        exact (caseFacts_of_isAlphanum (isAlphanum_of_isAlpha letter)).digit_of_alpha letter
    simp only [valueName, camelled, guardDigit, first]
    simp [h.filled, h.free]

end ClientGen.Name
