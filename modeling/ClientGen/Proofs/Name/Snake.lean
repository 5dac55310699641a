import Mathlib.Computability.Language
import ClientGen.Proofs.Name.FileName
import ClientGen.Text.Case

/-!
# Names in snake case

Snake case is a normal form of names. What it looks like is said by the pattern
`([a-z0-9]+(_[a-z0-9]+)*)?` (`snakeTexts`), and the names that match it are exactly those that stay
as they are in snake case (`snake_eq_self_iff`). Without its underscores a name in snake case is
what was written, as far as letters and digits of ASCII go, in small letters (`filter_snake`).

The words of a name are told by its snake case (`filter_splitWhere_snake`), and they are all that a
spelling is made from. So every spelling of a name is that of its snake case (`apply_snake`), and of
its kebab case. The name of a type matches `[A-Za-z_][A-Za-z0-9]*` (`typeName_mem_typeTexts`).

Snake case can be had by three substitutions in a text, one after the other: an underscore goes
between a capital and one that a small letter follows, then between a small letter or digit and a
capital, and then one underscore takes the place of every run of marks (`snake_eq_run`). A
substitution goes from left to right and on behind each match, so that matches do not overlap. For
the first two this makes no difference: no match can begin inside another one, as it would have to
begin with a capital where a small letter stands, or the other way round. So each of them says of
two neighbours whether an underscore goes between them (`lastCapital_cons_cons`,
`capitalBehind_cons_cons`), and together they mark the ends of words (`capitalBehind_lastCapital`).
-/

namespace ClientGen.Name

open scoped Computability

/-! ### Patterns -/

/-- The texts of one character of a class. -/
def oneOf (p : Char → Bool) : Language Char := {cs | ∃ c, p c = true ∧ cs = [c]}

/-- Whether a character is a small letter or a digit of ASCII. -/
def isSmall (c : Char) : Bool := c.isLower || c.isDigit

/-- `[a-z0-9]+` -/
def smallWord : Language Char := oneOf isSmall * (oneOf isSmall)∗

/-- `([a-z0-9]+(_[a-z0-9]+)*)?` -/
def snakeTexts : Language Char := 1 + smallWord * ({['_']} * smallWord)∗

/-- `[A-Za-z_][A-Za-z0-9]*` -/
def typeTexts : Language Char :=
  oneOf (fun c => c.isAlpha || c == '_') * (oneOf Char.isAlphanum)∗

variable {p : Char → Bool} {cs : List Char}

theorem singleton_mem_oneOf {c : Char} : [c] ∈ oneOf p ↔ p c = true := by
  constructor
  · rintro ⟨d, here, same⟩
    cases same
    exact here
  · exact fun here => ⟨c, here, rfl⟩

theorem mem_kstar_oneOf : cs ∈ (oneOf p)∗ ↔ ∀ c ∈ cs, p c = true := by
  rw [Language.mem_kstar]
  constructor
  · rintro ⟨parts, rfl, each⟩ c mem
    obtain ⟨part, listed, here⟩ := List.mem_flatten.1 mem
    obtain ⟨d, inside, rfl⟩ := each part listed
    rwa [List.mem_singleton.1 here]
  · intro each
    refine ⟨cs.map fun c => [c], ?_, List.forall_mem_map.2 fun c mem => ⟨c, each c mem, rfl⟩⟩
    rw [← List.flatMap_def, List.flatMap_singleton']

theorem mem_smallWord : cs ∈ smallWord ↔ cs ≠ [] ∧ ∀ c ∈ cs, isSmall c = true := by
  rw [smallWord, Language.mem_mul]
  constructor
  · rintro ⟨first, ⟨c, here, rfl⟩, rest, others, rfl⟩
    exact ⟨List.cons_ne_nil c rest, List.forall_mem_cons.2 ⟨here, mem_kstar_oneOf.1 others⟩⟩
  · rintro ⟨filled, each⟩
    obtain ⟨c, rest, rfl⟩ := List.exists_cons_of_ne_nil filled
    obtain ⟨here, others⟩ := List.forall_mem_cons.1 each
    exact ⟨[c], ⟨c, here, rfl⟩, rest, mem_kstar_oneOf.2 others, rfl⟩

/-! ### Words with underscores between them -/

theorem isSmall_iff {c : Char} :
    isSmall c = true ↔ c.isAlphanum = true ∧ c.isUpper = false := by
  constructor
  · intro small
    have alphanum : c.isAlphanum = true := by
      change ((c.isUpper || c.isLower) || c.isDigit) = true
      rw [Bool.or_assoc, ← isSmall, small, Bool.or_true]
    exact ⟨alphanum, by rw [isUpper_eq alphanum, ← isSmall, small, Bool.not_true]⟩
  · rintro ⟨alphanum, small⟩
    rwa [isUpper_eq alphanum, Bool.not_eq_false'] at small

/-- Words are texts of small letters and digits. -/
theorem areWords_iff {ws : List (List Char)} : AreWords ws ↔ ∀ w ∈ ws, w ∈ smallWord := by
  simp only [mem_smallWord, isSmall_iff]
  constructor
  · exact fun h w mem => ⟨h.filled w mem, fun c here => ⟨h.alphanum w mem c here,
      h.small w mem c here⟩⟩
  · exact fun each => ⟨fun w mem => (each w mem).1, fun w mem c here => ((each w mem).2 c here).1,
      fun w mem c here => ((each w mem).2 c here).2⟩

/-- Joined words are the first one, and each of the others behind a separator of its own. -/
theorem joinChars_cons (sep : Char) (w : List Char) (ws : List (List Char)) :
    Text.joinChars [sep] (w :: ws) = w ++ (ws.map (sep :: ·)).flatten := by
  induction ws generalizing w with
  | nil => simp [Text.joinChars]
  | cons v ws ih =>
    rw [Text.joinChars_cons_of_ne_nil _ _ (List.cons_ne_nil v ws), ih v]
    simp

/-- What matches the pattern of snake case is words with underscores between neighbours. -/
theorem mem_snakeTexts_iff :
    cs ∈ snakeTexts ↔ ∃ ws, AreWords ws ∧ Text.joinChars ['_'] ws = cs := by
  rw [snakeTexts, Language.mem_add, Language.mem_one, Language.mem_mul]
  constructor
  · rintro (rfl | ⟨w, word, tail, others, rfl⟩)
    · exact ⟨[], areWords_iff.2 nofun, rfl⟩
    · obtain ⟨parts, rfl, each⟩ := Language.mem_kstar.1 others
      have behind : ∀ part ∈ parts, part.tail ∈ smallWord ∧ '_' :: part.tail = part := by
        intro part mem
        obtain ⟨_, rfl, v, word, rfl⟩ := Language.mem_mul.1 (each part mem)
        exact ⟨word, rfl⟩
      have whole : (parts.map List.tail).map ('_' :: ·) = parts := by
        rw [List.map_map]
        exact (List.map_congr_left fun part mem => (behind part mem).2).trans (List.map_id' parts)
      refine ⟨w :: parts.map List.tail, areWords_iff.2 (List.forall_mem_cons.2 ⟨word, ?_⟩), ?_⟩
      · exact List.forall_mem_map.2 fun part mem => (behind part mem).1
      · rw [joinChars_cons, whole]
  · rintro ⟨ws, h, rfl⟩
    cases ws with
    | nil => exact .inl rfl
    | cons w ws =>
      obtain ⟨word, others⟩ := List.forall_mem_cons.1 (areWords_iff.1 h)
      refine .inr ⟨w, word, _, Language.join_mem_kstar ?_, (joinChars_cons '_' w ws).symm⟩
      exact List.forall_mem_map.2 fun v mem =>
        Language.append_mem_mul (a := ['_']) (Set.mem_singleton _) (others v mem)

/-! ### Snake case -/

theorem toList_snake (s : String) :
    (snake s).toList = Text.joinChars ['_'] (words s.toList) := by
  rw [snake, joinWords, String.toList_ofList]

theorem snake_mem_snakeTexts (s : String) : (snake s).toList ∈ snakeTexts :=
  mem_snakeTexts_iff.2 ⟨words s.toList, areWords_words s.toList, (toList_snake s).symm⟩

/-- **Names in snake case are the texts of the pattern**: they are those that stay as they are. -/
theorem snake_eq_self_iff {s : String} : snake s = s ↔ s.toList ∈ snakeTexts := by
  constructor
  · intro same
    rw [← same]
    exact snake_mem_snakeTexts s
  · intro mem
    obtain ⟨ws, h, text⟩ := mem_snakeTexts_iff.1 mem
    rw [← String.toList_inj, toList_snake, ← text, words_joinChars (by decide) h]

/-- No separator stands in a word. -/
theorem AreWords.ne_of_mem {ws : List (List Char)} (h : AreWords ws) (sep : Char)
    (mark : sep.isAlphanum = false) : ∀ w ∈ ws, ∀ c ∈ w, c ≠ sep := by
  rintro w mem c here rfl
  rw [h.alphanum w mem c here] at mark
  cases mark

/-- Without separators, joined words are the characters of the words. -/
theorem filter_joinChars {sep : Char} {ws : List (List Char)}
    (apart : ∀ w ∈ ws, ∀ c ∈ w, c ≠ sep) :
    (Text.joinChars [sep] ws).filter (· != sep) = ws.flatten := by
  have kept : ∀ w ∈ ws, w.filter (· != sep) = w := fun w mem =>
    List.filter_eq_self.2 fun c here => bne_iff_ne.2 (apart w mem c here)
  cases ws with
  | nil => rfl
  | cons w ws =>
    obtain ⟨first, others⟩ := List.forall_mem_cons.1 kept
    have each : ∀ v ∈ ws, (sep :: v).filter (· != sep) = v := fun v mem => by
      rw [List.filter_cons_of_neg (by simp), others v mem]
    rw [joinChars_cons, List.filter_append, first, List.filter_flatten, List.map_map,
      List.flatten_cons]
    exact congrArg (w ++ ·.flatten) ((List.map_congr_left each).trans (List.map_id' ws))

/-- **Snake case keeps the letters and digits of ASCII**, in small form and in their order. -/
theorem filter_snake (s : String) :
    (snake s).toList.filter (· != '_') = (s.toList.filter Char.isAlphanum).map Char.toLower := by
  have apart := (areWords_words s.toList).ne_of_mem '_' (by decide)
  rw [toList_snake, filter_joinChars apart, flatten_words]

example : snake "2 été-getHTTPResponse__v1X" = "2_t_get_http_response_v1_x" := by decide

/-! ### Other spellings -/

/-- The words of a name are the pieces of its snake case. -/
theorem filter_splitWhere_snake (s : String) :
    (Text.splitWhere (· == '_') (snake s).toList).filter (!·.isEmpty) = words s.toList := by
  have h := areWords_words s.toList
  rw [toList_snake]
  cases split : words s.toList with
  | nil => rfl
  | cons w ws =>
    rw [split] at h
    have apart : ∀ v ∈ w :: ws, ∀ c ∈ v, (c == '_') = false := fun v mem c here =>
      beq_eq_false_iff_ne.2 (h.ne_of_mem '_' (by decide) v mem c here)
    rw [splitWhere_joinChars (p := (· == '_')) (by rfl) apart]
    exact List.filter_eq_self.2 fun v mem => by simpa using h.filled v mem

theorem map_joinChars (f : Char → Char) (sep : Char) (ws : List (List Char)) :
    (Text.joinChars [sep] ws).map f = Text.joinChars [f sep] (ws.map (·.map f)) := by
  cases ws with
  | nil => rfl
  | cons w ws => simp [joinChars_cons, List.map_flatten, Function.comp_def]

/-- Kebab case has hyphens where snake case has underscores. -/
theorem toList_kebab (s : String) :
    (kebab s).toList = (snake s).toList.map fun c => if c = '_' then '-' else c := by
  have apart := (areWords_words s.toList).ne_of_mem '_' (by decide)
  have stays : ∀ w ∈ words s.toList, w.map (fun c => if c = '_' then '-' else c) = w := by
    intro w mem
    have each : ∀ c ∈ w, (if c = '_' then '-' else c) = c := fun c here =>
      if_neg (apart w mem c here)
    exact (List.map_congr_left each).trans (List.map_id' w)
  rw [toList_snake, map_joinChars, List.map_congr_left stays, List.map_id', kebab, joinWords,
    String.toList_ofList]
  rfl

/-- Constant case is snake case in capitals. -/
theorem toList_constant (s : String) :
    (constant s).toList = (snake s).toList.map Char.toUpper := by
  rw [toList_snake, map_joinChars, constant, joinWords, String.toList_ofList]
  rfl

/-- **Every spelling of a name is that of its snake case.** -/
theorem apply_snake (naming : Convention) (s : String) :
    naming.apply (snake s) = naming.apply s :=
  apply_congr naming (words_joinWords (by decide) s)

theorem apply_kebab (naming : Convention) (s : String) :
    naming.apply (kebab s) = naming.apply s :=
  apply_congr naming (words_joinWords (by decide) s)

theorem typeName_mem_typeTexts (s : String) : (typeName s).toList ∈ typeTexts := by
  obtain ⟨c, rest, alphanum, -, text⟩ := isTypeName_typeName s
  obtain ⟨first, others⟩ := List.forall_mem_cons.1 alphanum
  rw [typeTexts, text]
  split
  · next digit =>
    exact Language.append_mem_mul (a := ['_']) (singleton_mem_oneOf.2 rfl)
      (mem_kstar_oneOf.2 alphanum)
  · next noDigit =>
    have letter : c.isAlpha = true := by simpa [Char.isAlphanum, noDigit] using first
    refine Language.append_mem_mul (a := [c]) (singleton_mem_oneOf.2 ?_) (mem_kstar_oneOf.2 others)
    rw [letter, Bool.true_or]

/-- **Snake case is a normal form.** Whatever a name is, in snake case it matches
`([a-z0-9]+(_[a-z0-9]+)*)?` and has kept the letters and digits of ASCII, made small; it stays as it
is, also if hyphens take the place of its underscores; and it is made into the same names in camel
and Pascal case. The name of a type is not empty and matches `[A-Za-z_][A-Za-z0-9]*`. -/
theorem snake_canonical (s : String) :
    (snake s).toList ∈ snakeTexts ∧
    (snake s).toList.filter (· != '_') = (s.toList.filter Char.isAlphanum).map Char.toLower ∧
    (snake (snake s) = snake s ∧ snake (kebab s) = snake s) ∧
    (camel (snake s) = camel s ∧ pascal (snake s) = pascal s) ∧
    (typeName s ≠ "" ∧ (typeName s).toList ∈ typeTexts) := by
  refine ⟨snake_mem_snakeTexts s, filter_snake s, ⟨?_, ?_⟩, ⟨?_, ?_⟩, typeName_ne_empty s,
    typeName_mem_typeTexts s⟩
  · exact apply_snake .snake s
  · exact apply_kebab .snake s
  · exact apply_snake .camel s
  · exact apply_snake .pascal s

end ClientGen.Name

namespace ClientGen.Text

/-! ### Substitutions -/

/-- A pattern, with what is written in the place of its matches. -/
structure Substitution where
  /-- For a match at the beginning of characters: what is written for it, and what follows it. -/
  next : List Char → Option (List Char × List Char)
  /-- No match is empty. -/
  shorter : ∀ {cs new rest}, next cs = some (new, rest) → rest.length < cs.length

namespace Substitution

/-- Characters with every match replaced, from left to right and without overlaps. -/
def run (r : Substitution) : List Char → List Char
  | [] => []
  | c :: cs =>
    match found : r.next (c :: cs) with
    | some (new, rest) =>
      have := r.shorter found
      new ++ r.run rest
    | none => c :: r.run cs
termination_by cs => cs.length
decreasing_by
  · exact this
  · exact Nat.lt_succ_self cs.length

variable (r : Substitution)

@[simp] theorem run_nil : r.run [] = [] := by rw [run]

variable {r}

theorem run_of_some {cs new rest : List Char} (found : r.next cs = some (new, rest)) :
    r.run cs = new ++ r.run rest := by
  cases cs with
  | nil => exact absurd (r.shorter found) (Nat.not_lt_zero _)
  | cons c cs =>
    rw [run]
    split
    · next new' rest' found' =>
      rw [found] at found'
      cases found'
      rfl
    · next none =>
      rw [found] at none
      cases none

theorem run_of_none {c : Char} {cs : List Char} (none : r.next (c :: cs) = none) :
    r.run (c :: cs) = c :: r.run cs := by
  rw [run]
  split
  · next new rest found =>
    rw [none] at found
    cases found
  · rfl

end Substitution

end ClientGen.Text

namespace ClientGen.Name

open Text (Substitution)

/-! ### Ends of words -/

/-- `([A-Z])([A-Z][a-z])` becomes `\1_\2`. -/
def lastCapital : Substitution where
  next
    | c :: d :: e :: rest =>
      if c.isUpper && d.isUpper && e.isLower then some ([c, '_', d, e], rest) else none
    | _ => none
  shorter {cs new rest} found := by
    split at found
    · split at found
      · cases found
        exact Nat.lt_add_of_pos_right (Nat.succ_pos 2)
      · cases found
    · cases found

/-- `([a-z0-9])([A-Z])` becomes `\1_\2`. -/
def capitalBehind : Substitution where
  next
    | c :: d :: rest => if isSmall c && d.isUpper then some ([c, '_', d], rest) else none
    | _ => none
  shorter {cs new rest} found := by
    split at found
    · split at found
      · cases found
        exact Nat.lt_add_of_pos_right (Nat.succ_pos 1)
      · cases found
    · cases found

variable {c d : Char}

theorem isSmall_eq_false_of_isUpper (capital : c.isUpper = true) : isSmall c = false := by
  refine Bool.eq_false_iff.2 fun small => ?_
  rw [(isSmall_iff.1 small).2] at capital
  cases capital

theorem next_lastCapital (c d : Char) (rest : List Char) :
    lastCapital.next (c :: d :: rest) =
      if c.isUpper && d.isUpper && rest.head?.any Char.isLower then
        some (c :: '_' :: d :: rest.take 1, rest.drop 1)
      else none := by
  cases rest with
  | nil => simp [lastCapital]
  | cons e rest => rfl

theorem lastCapital_cons_of_first (noCapital : c.isUpper = false) (rest : List Char) :
    lastCapital.run (c :: rest) = c :: lastCapital.run rest := by
  refine Substitution.run_of_none ?_
  cases rest with
  | nil => rfl
  | cons d rest => simp [next_lastCapital, noCapital]

/-- Whether an underscore goes behind `c` is told by the two characters that follow. -/
theorem lastCapital_cons_cons (c d : Char) (rest : List Char) :
    lastCapital.run (c :: d :: rest) =
      if c.isUpper && d.isUpper && rest.head?.any Char.isLower then
        c :: '_' :: lastCapital.run (d :: rest)
      else c :: lastCapital.run (d :: rest) := by
  have found := next_lastCapital c d rest
  split
  · next matched =>
    rw [if_pos matched] at found
    obtain ⟨e, rest, rfl⟩ : ∃ e more, rest = e :: more := by
      cases rest with
      | nil => simp at matched
      | cons e rest => exact ⟨e, rest, rfl⟩
    have small : e.isLower = true := (Bool.and_eq_true_iff.1 matched).2
    have noCapital : e.isUpper = false :=
      (isSmall_iff.1 (by rw [isSmall, small, Bool.true_or])).2
    -- No match begins inside this one, since a small letter is its last character.
    have second : lastCapital.run (d :: e :: rest) = d :: lastCapital.run (e :: rest) :=
      Substitution.run_of_none (by simp [next_lastCapital, noCapital])
    rw [Substitution.run_of_some found, second, lastCapital_cons_of_first noCapital]
    rfl
  · next unmatched =>
    rw [if_neg unmatched] at found
    exact Substitution.run_of_none found

theorem exists_lastCapital_cons (c : Char) (cs : List Char) :
    ∃ tail, lastCapital.run (c :: cs) = c :: tail := by
  cases cs with
  | nil => exact ⟨_, Substitution.run_of_none (r := lastCapital) rfl⟩
  | cons d rest =>
    rw [lastCapital_cons_cons]
    split
    · exact ⟨_, rfl⟩
    · exact ⟨_, rfl⟩

theorem capitalBehind_cons_of_first (noSmall : isSmall c = false) (rest : List Char) :
    capitalBehind.run (c :: rest) = c :: capitalBehind.run rest := by
  refine Substitution.run_of_none ?_
  cases rest with
  | nil => rfl
  | cons d rest => simp [capitalBehind, noSmall]

/-- Whether an underscore goes behind `c` is told by the character that follows. -/
theorem capitalBehind_cons_cons (c d : Char) (rest : List Char) :
    capitalBehind.run (c :: d :: rest) =
      if isSmall c && d.isUpper then c :: '_' :: capitalBehind.run (d :: rest)
      else c :: capitalBehind.run (d :: rest) := by
  split
  · next matched =>
    have noSmall := isSmall_eq_false_of_isUpper (Bool.and_eq_true_iff.1 matched).2
    have found : capitalBehind.next (c :: d :: rest) = some ([c, '_', d], rest) := if_pos matched
    rw [Substitution.run_of_some found, capitalBehind_cons_of_first noSmall]
    rfl
  · next unmatched => exact Substitution.run_of_none (if_neg unmatched)

/-- **One after the other the two substitutions mark the ends of words.** -/
theorem capitalBehind_lastCapital (cs : List Char) :
    capitalBehind.run (lastCapital.run cs) = markHumps cs := by
  -- What is behind `c` begins with `d` once the first substitution is through, so that the second
  -- one sees the same neighbours, or the underscore between them, which it leaves alone.
  fun_induction markHumps cs with
  | case1 c d rest hump ih =>
    obtain ⟨tail, text⟩ := exists_lastCapital_cons d rest
    rw [lastCapital_cons_cons]
    split
    · next matched =>
      have capital : c.isUpper = true := by
        simp only [Bool.and_eq_true] at matched
        exact matched.1.1
      rw [capitalBehind_cons_of_first (isSmall_eq_false_of_isUpper capital),
        capitalBehind_cons_of_first (by decide), ih]
    · next unmatched =>
      rw [humpBetween, ← isSmall, Bool.or_eq_true, or_iff_right unmatched] at hump
      rw [text, capitalBehind_cons_cons, if_pos hump, ← text, ih]
  | case2 c d rest noHump ih =>
    obtain ⟨tail, text⟩ := exists_lastCapital_cons d rest
    rw [humpBetween, ← isSmall, Bool.or_eq_true, not_or] at noHump
    rw [lastCapital_cons_cons, if_neg noHump.1, text, capitalBehind_cons_cons, if_neg noHump.2,
      ← text, ih]
  | case3 cs short =>
    have alone (r : Substitution) {c : Char} (none : r.next [c] = none) : r.run [c] = [c] := by
      rw [Substitution.run_of_none none, Substitution.run_nil]
    cases cs with
    | nil => rw [Substitution.run_nil, Substitution.run_nil]
    | cons c rest =>
      cases rest with
      | nil => rw [alone lastCapital rfl, alone capitalBehind rfl]
      | cons d rest => exact absurd rfl (short c d rest)

/-! ### Runs of marks -/

/-- Whether a character is a mark: neither a letter nor a digit of ASCII. -/
def isMark (c : Char) : Bool := !c.isAlphanum

/-- `[^a-zA-Z0-9]+` becomes `_`. -/
def markRun : Substitution where
  next
    | [] => none
    | c :: rest => if isMark c then some (['_'], rest.dropWhile isMark) else none
  shorter {cs new rest} found := by
    split at found
    · cases found
    · split at found
      · cases found
        exact Nat.lt_succ_of_le (List.dropWhile_sublist _).length_le
      · cases found

theorem beq_underscore_of_isMark (kept : isMark c = false) : (c == '_') = false := by
  rw [beq_eq_false_iff_ne]
  rintro rfl
  exact absurd kept (by decide)

theorem markRun_cons_of_kept (kept : isMark c = false) (rest : List Char) :
    markRun.run (c :: rest) = c :: markRun.run rest :=
  Substitution.run_of_none (if_neg (Bool.eq_false_iff.1 kept))

theorem markRun_cons_of_mark (mark : isMark c = true) (rest : List Char) :
    markRun.run (c :: rest) = '_' :: markRun.run (rest.dropWhile isMark) := by
  have found : markRun.next (c :: rest) = some (['_'], rest.dropWhile isMark) := if_pos mark
  rw [Substitution.run_of_some found]
  rfl

/-- Of two marks side by side, the first makes no difference. -/
theorem markRun_cons_cons (first : isMark c = true) (second : isMark d = true) (rest : List Char) :
    markRun.run (c :: d :: rest) = markRun.run (d :: rest) := by
  rw [markRun_cons_of_mark first, markRun_cons_of_mark second, List.dropWhile_cons_of_pos second]

/-- A mark that letters or digits follow becomes an underscore. -/
theorem markRun_cons_of_last (first : isMark c = true) (second : isMark d = false)
    (rest : List Char) : markRun.run (c :: d :: rest) = '_' :: markRun.run (d :: rest) := by
  rw [markRun_cons_of_mark first, List.dropWhile_cons_of_neg (Bool.eq_false_iff.1 second)]

theorem dropEndWhile_cons (p : Char → Bool) (c : Char) (cs : List Char) :
    Text.dropEndWhile p (c :: cs) =
      if p c && (Text.dropEndWhile p cs).isEmpty then [] else c :: Text.dropEndWhile p cs := by
  rw [Text.dropEndWhile]
  cases Text.dropEndWhile p cs <;> simp

/-- Where runs of marks are replaced, and not kept at the end, the first piece stays and those of
the others that are not empty. -/
theorem dropEndWhile_markRun {cs piece : List Char} {pieces : List (List Char)}
    (split : Text.splitWhere isMark cs = piece :: pieces) :
    Text.dropEndWhile (· == '_') (markRun.run cs) =
      Text.joinChars ['_'] (piece :: pieces.filter (!·.isEmpty)) := by
  induction cs generalizing piece pieces with
  | nil =>
    cases split
    simp [Text.dropEndWhile, Text.joinChars]
  | cons c rest ih =>
    cases mark : isMark c with
    | false =>
      obtain ⟨next, others, behind, whole⟩ := Text.exists_splitWhere_cons mark rest
      obtain ⟨rfl, rfl⟩ := List.cons.inj (whole.symm.trans split)
      rw [markRun_cons_of_kept mark, dropEndWhile_cons, beq_underscore_of_isMark mark, ih behind,
        Text.joinChars_cons_char]
      rfl
    | true =>
      rw [Text.splitWhere, if_pos mark] at split
      obtain ⟨rfl, rfl⟩ := List.cons.inj split
      cases rest with
      | nil => simp [markRun_cons_of_mark mark, Text.dropEndWhile, Text.splitWhere, Text.joinChars]
      | cons d rest =>
        cases next : isMark d with
        | false =>
          obtain ⟨word, others, -, behind⟩ := Text.exists_splitWhere_cons next rest
          rw [markRun_cons_of_last mark next, dropEndWhile_cons, ih behind, behind,
            Text.joinChars_cons_char]
          simp [Text.joinChars, Text.joinChars_cons_char]
        | true =>
          have behind : Text.splitWhere isMark (d :: rest) = [] :: Text.splitWhere isMark rest := by
            rw [Text.splitWhere, if_pos next]
          rw [markRun_cons_cons mark next, ih behind, behind]
          rfl

/-- Marks in front become one underscore. -/
theorem dropWhile_markRun (cs : List Char) :
    (markRun.run cs).dropWhile (· == '_') = markRun.run (cs.dropWhile isMark) := by
  have stays {c : Char} (kept : isMark c = false) (rest : List Char) :
      (markRun.run (c :: rest)).dropWhile (· == '_') = markRun.run (c :: rest) := by
    rw [markRun_cons_of_kept kept]
    exact List.dropWhile_cons_of_neg (Bool.eq_false_iff.1 (beq_underscore_of_isMark kept))
  induction cs with
  | nil => simp
  | cons c rest ih =>
    cases mark : isMark c with
    | false => rw [List.dropWhile_cons_of_neg (Bool.eq_false_iff.1 mark), stays mark]
    | true =>
      rw [List.dropWhile_cons_of_pos mark, ← ih]
      cases rest with
      | nil => simp [markRun_cons_of_mark mark]
      | cons d rest =>
        cases next : isMark d with
        | false => rw [markRun_cons_of_last mark next, List.dropWhile_cons_of_pos (by rfl)]
        | true => rw [markRun_cons_cons mark next]

theorem filter_splitWhere_dropWhile (p : Char → Bool) (cs : List Char) :
    (Text.splitWhere p (cs.dropWhile p)).filter (!·.isEmpty) =
      (Text.splitWhere p cs).filter (!·.isEmpty) := by
  induction cs with
  | nil => rfl
  | cons c rest ih =>
    by_cases cut : p c = true
    · rw [List.dropWhile_cons_of_pos cut, ih, Text.splitWhere, if_pos cut]
      rfl
    · rw [List.dropWhile_cons_of_neg cut]

/-- **Where runs of marks are replaced, and dropped at both ends, the pieces stay that are not
empty.** -/
theorem stripWhile_markRun (cs : List Char) :
    Text.stripWhile (· == '_') (markRun.run cs) =
      Text.joinChars ['_'] ((Text.splitWhere isMark cs).filter (!·.isEmpty)) := by
  rw [Text.stripWhile, dropWhile_markRun, ← filter_splitWhere_dropWhile]
  cases begins : cs.dropWhile isMark with
  | nil => simp [Text.dropEndWhile, Text.splitWhere, Text.joinChars]
  | cons c rest =>
    have kept : isMark c = false := by
      have first := List.head?_dropWhile_not isMark cs
      rw [begins] at first
      simpa using first
    obtain ⟨piece, pieces, -, split⟩ := Text.exists_splitWhere_cons kept rest
    rw [dropEndWhile_markRun split, split]
    rfl

/-! ### Snake case by substitutions -/

theorem lower_of_ascii {cs : List Char} (ascii : ∀ c ∈ cs, c.toNat < 128) :
    Text.lower (String.ofList cs) = String.ofList (cs.map Char.toLower) := by
  have each (before : List Char) : Text.lowerFrom before cs = cs.map Char.toLower := by
    induction cs generalizing before with
    | nil => rfl
    | cons c rest ih =>
      obtain ⟨first, others⟩ := List.forall_mem_cons.1 ascii
      have noSigma : c ≠ Text.sigma := by
        rintro rfl
        exact absurd first (by decide)
      rw [Text.lowerFrom, ih others, Text.lowerBetween, if_neg (by simp [noSigma]),
        Text.lowerChar, if_pos first]
      rfl
  rw [Text.lower, String.toList_ofList, each]

/-- **Snake case by substitutions**: ends of words are marked between a capital and one that a small
letter follows, and between a small letter or digit and a capital; then runs of marks become
underscores, those at the ends are dropped, and letters are made small. -/
theorem snake_eq_run (s : String) :
    snake s = Text.lower (String.ofList (Text.stripWhile (· == '_')
      (markRun.run (capitalBehind.run (lastCapital.run s.toList))))) := by
  rw [capitalBehind_lastCapital, stripWhile_markRun, lower_of_ascii, map_joinChars]
  · rfl
  · intro c mem
    rcases mem_joinChars mem with rfl | ⟨piece, listed, here⟩
    · decide
    · have kept := not_of_mem_splitWhere (List.mem_filter.1 listed).1 here
      exact toNat_lt_of_isAlphanum (by simpa [isMark] using kept)

end ClientGen.Name
