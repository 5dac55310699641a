import ClientGen.Proofs.Name.Pascal
import ClientGen.Proofs.Text.Length

/-!
# Files named after types

A file is named by the words of a name, and however it is spelled, it tells the name of the type
(`typeName_eq_of_apply_eq`). Reading the name of a type as a name once more may change it, but not
its words (`words_typeName`): where a capital becomes small no word begins, and none ends. So two
types have one file exactly if they have one name (`apply_eq_iff`).

The words of a name hold its ASCII letters and digits, made small, in their order (`flatten_words`).
All other characters are marks: they tell where words end, and it does not matter which marks stand
in a place, or how many (`words_eq_of_alike`).
-/

namespace ClientGen.Name

/-! ### Words of letters and digits -/

/-- The first piece begins with the first letter or digit. -/
theorem splitWhere_markHumps_cons {c : Char} (kept : c.isAlphanum = true) (rest : List Char) :
    ∃ piece pieces, Text.splitWhere (fun d => !d.isAlphanum) (markHumps (c :: rest)) =
      (c :: piece) :: pieces := by
  obtain ⟨tail, marked⟩ : ∃ tail, markHumps (c :: rest) = c :: tail := by
    cases rest with
    | nil => exact ⟨[], rfl⟩
    | cons d rest =>
      rw [markHumps]
      split
      · exact ⟨_, rfl⟩
      · exact ⟨_, rfl⟩
  have goesOn : (!c.isAlphanum) = false := by rw [kept, Bool.not_true]
  obtain ⟨piece, pieces, -, split⟩ :=
    Text.exists_splitWhere_cons (p := fun d => !d.isAlphanum) goesOn tail
  exact ⟨piece, pieces, by rw [marked, split]⟩

/-- A letter or digit before another is a word of its own, or it belongs to the first word of what
follows. -/
theorem words_cons_cons {c d : Char} (before : c.isAlphanum = true) (here : d.isAlphanum = true)
    (rest : List Char) : words (c :: d :: rest) =
      if humpBetween c d rest then [c.toLower] :: words (d :: rest)
      else (words (d :: rest)).modifyHead (c.toLower :: ·) := by
  obtain ⟨piece, pieces, split⟩ := splitWhere_markHumps_cons here rest
  have mark : ('_' : Char).isAlphanum = false := by decide
  rw [words, words, markHumps]
  split
  · simp [Text.splitWhere, before, mark, split]
  · simp [Text.splitWhere, before, split]

/-! ### Words of the name of a type -/

theorem isUpper_of_humpBetween {c d : Char} {rest : List Char}
    (hump : humpBetween c d rest = true) : d.isUpper = true := by
  simp only [humpBetween, Bool.or_eq_true, Bool.and_eq_true] at hump
  rcases hump with ⟨⟨-, capital⟩, -⟩ | ⟨-, capital⟩ <;> exact capital

/-- A word begins at a capital behind anything else. -/
theorem humpBetween_of_isUpper_eq_false {c d : Char} (alphanum : c.isAlphanum = true)
    (small : c.isUpper = false) (capital : d.isUpper = true) (rest : List Char) :
    humpBetween c d rest = true := by
  have other : (c.isLower || c.isDigit) = true := by
    rw [isUpper_eq alphanum, Bool.not_eq_false'] at small
    exact small
  rw [humpBetween, capital, other, Bool.true_and, Bool.or_true]

/-- A small letter stays when a name is read. -/
theorem head?_recased_of_isLower {c : Char} {rest : List Char}
    (alphanum : ∀ d ∈ rest, d.isAlphanum = true) (small : rest.head?.any Char.isLower = true) :
    (recased c rest).head?.any Char.isLower = true := by
  cases rest with
  | nil => cases small
  | cons d rest =>
    have here := alphanum d List.mem_cons_self
    have lower : d.isLower = true := small
    have noCapital : d.isUpper = false := by rw [isUpper_eq here, lower]; rfl
    have noHump : ¬ humpBetween c d rest = true := fun hump => by
      rw [isUpper_of_humpBetween hump] at noCapital
      cases noCapital
    rw [recased, if_neg noHump, toLower_of_isUpper_eq_false here noCapital]
    exact lower

/-- The same words end behind a letter, whether it has become small or not, once what follows it has
been read. -/
theorem humpBetween_recased {c c' d : Char} {rest : List Char}
    (alphanum : ∀ e ∈ c :: d :: rest, e.isAlphanum = true) (read : c' = c ∨ c' = c.toLower) :
    humpBetween c' (if humpBetween c d rest then d else d.toLower) (recased d rest) =
      humpBetween c d rest := by
  obtain ⟨before, others⟩ := List.forall_mem_cons.1 alphanum
  obtain ⟨here, others⟩ := List.forall_mem_cons.1 others
  by_cases hump : humpBetween c d rest = true
  · have capital := isUpper_of_humpBetween hump
    rw [if_pos hump, hump]
    rcases read with rfl | rfl
    · cases large : c'.isUpper with
      | false => exact humpBetween_of_isUpper_eq_false before large capital _
      | true =>
        -- Between capitals a word ends before a small letter, which stays.
        have small : (c'.isLower || c'.isDigit) = false := by
          rw [isUpper_eq before, Bool.not_eq_true'] at large
          exact large
        rw [humpBetween, large, capital, small] at hump ⊢
        have followed : rest.head?.any Char.isLower = true := by simpa using hump
        rw [head?_recased_of_isLower others followed]
        rfl
    · exact humpBetween_of_isUpper_eq_false (isAlphanum_toLower before) (isUpper_toLower before)
        capital _
  · rw [if_neg hump, humpBetween, isUpper_toLower here]
    simp [hump]

/-- Letters and digits have the same words once they have been read. -/
theorem words_recased {c c' : Char} {rest : List Char}
    (alphanum : ∀ d ∈ c :: rest, d.isAlphanum = true) (read : c' = c ∨ c' = c.toLower) :
    words (c' :: recased c rest) = words (c :: rest) := by
  induction rest generalizing c c' with
  | nil =>
    have before := alphanum c List.mem_cons_self
    rcases read with rfl | rfl
    · rfl
    · have small := toLower_of_isUpper_eq_false (isAlphanum_toLower before) (isUpper_toLower before)
      simp [recased, words, markHumps, Text.splitWhere, isAlphanum_toLower before, before, small]
  | cons d rest ih =>
    obtain ⟨before, others⟩ := List.forall_mem_cons.1 alphanum
    have first : c'.isAlphanum = true ∧ c'.toLower = c.toLower := by
      rcases read with rfl | rfl
      · exact ⟨before, rfl⟩
      · have kept := isAlphanum_toLower before
        exact ⟨kept, toLower_of_isUpper_eq_false kept (isUpper_toLower before)⟩
    have next : (if humpBetween c d rest then d else d.toLower) = d ∨
        (if humpBetween c d rest then d else d.toLower) = d.toLower := by
      split
      · exact .inl rfl
      · exact .inr rfl
    have here := others d List.mem_cons_self
    have second : (if humpBetween c d rest then d else d.toLower).isAlphanum = true := by
      split
      · exact here
      · exact isAlphanum_toLower here
    rw [recased, words_cons_cons first.1 second, words_cons_cons before here,
      humpBetween_recased alphanum read, ih others next, first.2]

/-- **The name of a type has the same words as the name that it is read from**, if that is spelled
like one. -/
theorem words_typeName {s : String} (h : IsTypeName s) :
    words (typeName s).toList = words s.toList := by
  obtain ⟨c, rest, alphanum, large, text⟩ := h
  rw [toList_typeName alphanum large text, text]
  split
  · rw [words_underscore, words_underscore, words_recased alphanum (.inl rfl)]
  · exact words_recased alphanum (.inl rfl)

/-! ### Spellings -/

theorem apply_congr (naming : Convention) {s t : String} (h : words s.toList = words t.toList) :
    naming.apply s = naming.apply t := by
  cases naming with
  | camel => exact camel_congr h
  | kebab =>
    change kebab s = kebab t
    rw [kebab, h, kebab]
  | snake =>
    change snake s = snake t
    rw [snake, h, snake]
  | pascal =>
    change pascal s = pascal t
    rw [pascal, h, pascal]

/-- Words that were joined are told apart again, at a character that stands in none. -/
theorem splitWhere_joinChars {p : Char → Bool} {sep : Char} (cuts : p sep = true)
    {w : List Char} {ws : List (List Char)} (apart : ∀ v ∈ w :: ws, ∀ c ∈ v, p c = false) :
    Text.splitWhere p (Text.joinChars [sep] (w :: ws)) = w :: ws := by
  induction ws generalizing w with
  | nil => exact Text.splitWhere_of_forall (apart w List.mem_cons_self)
  | cons v ws ih =>
    obtain ⟨first, others⟩ := List.forall_mem_cons.1 apart
    rw [Text.joinChars_cons_of_ne_nil _ _ (List.cons_ne_nil v ws), List.append_assoc,
      List.singleton_append, Text.splitWhere_append_cons cuts, Text.splitWhere_of_forall first,
      ih others]
    rfl

/-- Where no capital stands, words end at marks only. -/
theorem markHumps_eq_self {cs : List Char} (small : ∀ c ∈ cs, c.isUpper = false) :
    markHumps cs = cs := by
  fun_induction markHumps cs with
  | case1 c d rest hump =>
    have capital := isUpper_of_humpBetween hump
    rw [small d (List.mem_cons_of_mem c List.mem_cons_self)] at capital
    cases capital
  | case2 c d rest noHump ih => rw [ih fun e mem => small e (List.mem_cons_of_mem c mem)]
  | case3 => rfl

/-- **Words with a mark between neighbours are read as these words.** -/
theorem words_joinChars {sep : Char} (mark : sep.isAlphanum = false) {ws : List (List Char)}
    (h : AreWords ws) : words (Text.joinChars [sep] ws) = ws := by
  have small : ∀ c ∈ Text.joinChars [sep] ws, c.isUpper = false := by
    intro c mem
    rcases mem_joinChars mem with rfl | ⟨w, listed, here⟩
    · exact (noLetter_of_mark mark).1
    · exact h.small w listed c here
  have filled : ws.filter (!·.isEmpty) = ws :=
    List.filter_eq_self.2 fun w mem => by simpa using h.filled w mem
  have read : (Text.splitWhere (fun c => !c.isAlphanum) (Text.joinChars [sep] ws)).filter
      (!·.isEmpty) = ws := by
    cases ws with
    | nil => rfl
    | cons w ws =>
      have apart : ∀ v ∈ w :: ws, ∀ c ∈ v, (!c.isAlphanum) = false := fun v mem c here => by
        rw [h.alphanum v mem c here, Bool.not_true]
      rw [splitWhere_joinChars (by rw [mark, Bool.not_false]) apart, filled]
  rw [words, markHumps_eq_self small, read]
  exact (List.map_congr_left h.map_toLower).trans (List.map_id' ws)

theorem words_joinWords {sep : Char} (mark : sep.isAlphanum = false) (s : String) :
    words (joinWords sep (words s.toList)).toList = words s.toList := by
  rw [joinWords, String.toList_ofList, words_joinChars mark (areWords_words s.toList)]

theorem joinWords_inj {sep : Char} (mark : sep.isAlphanum = false) {s t : String}
    (same : joinWords sep (words s.toList) = joinWords sep (words t.toList)) :
    words s.toList = words t.toList := by
  rw [← words_joinWords mark s, ← words_joinWords mark t, same]

/-- A name in Pascal case is that in camel case with a capital first letter. -/
theorem toList_pascal_eq_capitalize_camel (s : String) :
    (pascal s).toList = capitalize (camel s).toList := by
  have filled := (areWords_words s.toList).filled
  rw [toList_camel, pascal, String.toList_ofList]
  revert filled
  cases words s.toList with
  | nil => exact fun _ => rfl
  | cons w ws =>
    intro filled
    obtain ⟨c, rest, rfl⟩ := List.exists_cons_of_ne_nil (filled w List.mem_cons_self)
    simp [camelParts, capitalize, List.flatMap_def]

/-- The spelling of a file name tells the name of a type. -/
theorem typeName_eq_of_apply_eq (naming : Convention) {s t : String}
    (same : naming.apply s = naming.apply t) : typeName s = typeName t := by
  suffices pascal s = pascal t by rw [typeName, typeName, this]
  cases naming with
  | camel =>
    have camelled : camel s = camel t := same
    rw [← String.toList_inj, toList_pascal_eq_capitalize_camel, toList_pascal_eq_capitalize_camel,
      camelled]
  | kebab => exact apply_congr .pascal (joinWords_inj (by decide) same)
  | snake => exact apply_congr .pascal (joinWords_inj (by decide) same)
  | pascal => exact same

/-- A file is spelled like the name that the type is named after. -/
theorem apply_typeName (naming : Convention) {s : String} (h : IsTypeName s) :
    naming.apply (typeName s) = naming.apply s :=
  apply_congr naming (words_typeName h)

/-- **Two types have one file exactly if they have one name**, however files are spelled. -/
theorem apply_eq_iff (naming : Convention) {s t : String} (h : IsTypeName s) (h' : IsTypeName t) :
    naming.apply s = naming.apply t ↔ typeName s = typeName t := by
  refine ⟨typeName_eq_of_apply_eq naming, fun same => ?_⟩
  rw [← apply_typeName naming h, ← apply_typeName naming h', same]

/-! ### Words of longer names -/

/-- A letter or digit that no other one follows is a word of its own. -/
theorem words_cons_of_end {c : Char} {cs : List Char} (letter : c.isAlphanum = true)
    (ends : ∀ d ∈ cs.head?, d.isAlphanum = false) : words (c :: cs) = [c.toLower] :: words cs := by
  cases cs with
  | nil => simp [words, markHumps, Text.splitWhere, letter]
  | cons d rest =>
    have mark : d.isAlphanum = false := ends d rfl
    have noHump : ¬humpBetween c d rest = true := by
      simp [humpBetween, (noLetter_of_mark mark).1]
    have marked : markHumps (c :: d :: rest) = c :: d :: markHumps rest := by
      rw [markHumps, if_neg noHump, markHumps_cons_of_mark mark]
    rw [words_cons_of_mark mark]
    simp [words, marked, Text.splitWhere, letter, mark]

/-- The words of a name hold its letters and digits in small form, in their order. -/
theorem flatten_words (cs : List Char) :
    (words cs).flatten = (cs.filter Char.isAlphanum).map Char.toLower := by
  induction cs with
  | nil => rfl
  | cons c cs ih =>
    by_cases letter : c.isAlphanum = true
    · rw [List.filter_cons_of_pos letter, List.map_cons, ← ih]
      by_cases ends : ∀ d ∈ cs.head?, d.isAlphanum = false
      · rw [words_cons_of_end letter ends]
        rfl
      · -- The next character is a letter or digit, so there is a first word behind `c`.
        cases cs with
        | nil => simp at ends
        | cons d rest =>
          have next : d.isAlphanum = true := by simpa using ends
          rw [words_cons_cons letter next]
          split
          · rfl
          · cases behind : words (d :: rest) with
            | nil =>
              rw [behind, List.filter_cons_of_pos next] at ih
              cases ih
            | cons w ws => rfl
    · rw [List.filter_cons_of_neg letter, ← ih, words_cons_of_mark (by simpa using letter)]

/-! ### Names with the same letters -/

/-- Whether characters are marks, one at least. -/
def AreMarks (cs : List Char) : Prop := cs ≠ [] ∧ ∀ c ∈ cs, c.isAlphanum = false

theorem areMarks_singleton {c : Char} (mark : c.isAlphanum = false) : AreMarks [c] := by
  refine ⟨List.cons_ne_nil c [], ?_⟩
  intro d mem
  rwa [List.mem_singleton.1 mem]

theorem areMarks_cons {c : Char} {cs : List Char} (mark : c.isAlphanum = false)
    (others : AreMarks cs) : AreMarks (c :: cs) :=
  ⟨List.cons_ne_nil c cs, List.forall_mem_cons.2 ⟨mark, others.2⟩⟩

/-- Whether two names have the same letters and digits, and marks between the same of them. -/
inductive Alike : List Char → List Char → Prop
  | nil : Alike [] []
  | letter {c : Char} {cs ds : List Char} (alphanum : c.isAlphanum = true) (behind : Alike cs ds) :
    Alike (c :: cs) (c :: ds)
  | marks {marks marks' cs ds : List Char} (left : AreMarks marks) (right : AreMarks marks')
    (behind : Alike cs ds) : Alike (marks ++ cs) (marks' ++ ds)

theorem words_append_of_marks {marks : List Char} (h : ∀ c ∈ marks, c.isAlphanum = false)
    (cs : List Char) : words (marks ++ cs) = words cs := by
  induction marks with
  | nil => rfl
  | cons c rest ih =>
    obtain ⟨mark, others⟩ := List.forall_mem_cons.1 h
    rw [List.cons_append, words_cons_of_mark mark, ih others]

theorem AreMarks.ends {marks : List Char} (h : AreMarks marks) (cs : List Char) :
    ∀ d ∈ (marks ++ cs).head?, d.isAlphanum = false := by
  obtain ⟨c, rest, rfl⟩ := List.exists_cons_of_ne_nil h.1
  intro d first
  cases first
  exact h.2 _ List.mem_cons_self

theorem Alike.head?_isLower {cs ds : List Char} (h : Alike cs ds) :
    cs.head?.any Char.isLower = ds.head?.any Char.isLower := by
  have noLower {marks : List Char} (h : AreMarks marks) (cs : List Char) :
      (marks ++ cs).head?.any Char.isLower = false := by
    obtain ⟨c, rest, rfl⟩ := List.exists_cons_of_ne_nil h.1
    exact (noLetter_of_mark (h.2 _ List.mem_cons_self)).2.1
  cases h with
  | nil => rfl
  | letter => rfl
  | marks left right => rw [noLower left, noLower right]

/-- Names with the same letters have the same words. -/
theorem words_eq_of_alike {cs ds : List Char} (h : Alike cs ds) : words cs = words ds := by
  induction h with
  | nil => rfl
  | marks left right _ ih =>
    rw [words_append_of_marks left.2, words_append_of_marks right.2, ih]
  | @letter c cs ds letter behind ih =>
    cases behind with
    | nil => rfl
    | marks left right =>
      rw [words_cons_of_end letter (left.ends _), words_cons_of_end letter (right.ends _), ih]
    | @letter d cs ds next behind =>
      have hump : humpBetween c d cs = humpBetween c d ds := by
        rw [humpBetween, humpBetween, behind.head?_isLower]
      rw [words_cons_cons letter next, words_cons_cons letter next, hump, ih]

end ClientGen.Name
