import ClientGen.Document.Read
import ClientGen.Proofs.Name.Spelling
import ClientGen.Proofs.Text.Length

/-!
# References into a document

A reference lists the keys that lead to a mapping, each behind a slash. In a key, a tilde is written
`~0` and a slash `~1`.

* **A mapping is found by its keys, and by nothing else** (`resolve_reference`): the reference with
  the keys that lead to it, whatever characters they are made of, resolves to it without a warning.
  A reference whose keys lead to no mapping gives one warning, and an empty mapping.
* What stands before the first slash is never looked at. So a reference to another document resolves
  to what the same keys lead to in this one (`resolve_elsewhere`).

Undoing the escapes is split in two, as the text is read: slashes first (`unescape_slashes`), and
then tildes (`unescape_tildes`). The other way round `~01`, which stands for `~1`, would become a
slash.
-/

namespace ClientGen.Document

/-! ### Keys as they are written -/

/-- A character of a key as it is written in a reference. -/
def escapeChar (c : Char) : List Char :=
  if c = '~' then ['~', '0'] else if c = '/' then ['~', '1'] else [c]

/-- A key as it is written in a reference. -/
def escapeKey (key : String) : String := Text.escapeWith escapeChar key

/-- Text with segments behind it, each behind a slash. -/
def joinSegments (before : String) (segments : List String) : String :=
  String.ofList (before.toList ++ segments.flatMap fun segment => '/' :: segment.toList)

/-- The reference that lists keys of its own document. -/
def pointer (keys : List String) : String := joinSegments "#" (keys.map escapeKey)

section Escapes

variable {c : Char} {mark meaning : Char}

theorem unescape_cons_of_ne (h : c ≠ '~') (cs : List Char) :
    unescape mark meaning (c :: cs) = c :: unescape mark meaning cs := by
  cases cs with
  | nil => rfl
  | cons d cs =>
    rw [unescape, if_neg]
    intro both
    exact h both.1

theorem unescape_tilde_of_ne (h : c ≠ mark) (cs : List Char) :
    unescape mark meaning ('~' :: c :: cs) = '~' :: unescape mark meaning (c :: cs) := by
  rw [unescape, if_neg]
  intro both
  exact h both.2

theorem unescape_tilde_mark (cs : List Char) :
    unescape mark meaning ('~' :: mark :: cs) = meaning :: unescape mark meaning cs := by
  simp [unescape]

/-- A character of a key with only tildes escaped. -/
def escapeTilde (c : Char) : List Char := if c = '~' then ['~', '0'] else [c]

theorem unescape_slashes (cs : List Char) :
    unescape '1' '/' (cs.flatMap escapeChar) = cs.flatMap escapeTilde := by
  induction cs with
  | nil => rfl
  | cons c cs ih =>
    rw [List.flatMap_cons, List.flatMap_cons]
    by_cases tilde : c = '~'
    · subst tilde
      -- The zero behind a tilde keeps it from being read with what follows.
      show unescape '1' '/' ('~' :: '0' :: cs.flatMap escapeChar) =
        '~' :: '0' :: cs.flatMap escapeTilde
      rw [unescape_tilde_of_ne (by decide), unescape_cons_of_ne (by decide), ih]
    · have kept : escapeTilde c = [c] := if_neg tilde
      rw [kept]
      by_cases slash : c = '/'
      · subst slash
        show unescape '1' '/' ('~' :: '1' :: cs.flatMap escapeChar) = '/' :: cs.flatMap escapeTilde
        rw [unescape_tilde_mark, ih]
      · have plain : escapeChar c = [c] := by simp [escapeChar, tilde, slash]
        rw [plain, List.singleton_append, List.singleton_append, unescape_cons_of_ne tilde, ih]

theorem unescape_tildes (cs : List Char) :
    unescape '0' '~' (cs.flatMap escapeTilde) = cs := by
  induction cs with
  | nil => rfl
  | cons c cs ih =>
    rw [List.flatMap_cons]
    by_cases tilde : c = '~'
    · subst tilde
      show unescape '0' '~' ('~' :: '0' :: cs.flatMap escapeTilde) = '~' :: cs
      rw [unescape_tilde_mark, ih]
    · have kept : escapeTilde c = [c] := if_neg tilde
      rw [kept, List.singleton_append, unescape_cons_of_ne tilde, ih]

/-- A key is read back from the way it is written. -/
theorem unescapeSegment_escapeKey (key : String) : unescapeSegment (escapeKey key) = key := by
  unfold unescapeSegment escapeKey Text.escapeWith
  rw [String.toList_ofList, unescape_slashes, unescape_tildes, String.ofList_toList]

theorem slash_not_mem_escapeKey (key : String) : '/' ∉ (escapeKey key).toList := by
  unfold escapeKey Text.escapeWith
  rw [String.toList_ofList, List.mem_flatMap]
  rintro ⟨c, -, mem⟩
  unfold escapeChar at mem
  by_cases tilde : c = '~'
  · simp [tilde] at mem
  · by_cases slash : c = '/'
    · simp [slash] at mem
    · rw [if_neg tilde, if_neg slash, List.mem_singleton] at mem
      exact slash mem.symm

end Escapes

/-! ### Segments -/

theorem splitAt_joinSegments {before : String} {segments : List String}
    (noSlash : '/' ∉ before.toList) (apart : ∀ s ∈ segments, '/' ∉ s.toList) :
    Text.splitAt '/' (joinSegments before segments) = before :: segments := by
  unfold Text.splitAt joinSegments
  rw [String.toList_ofList]
  induction segments generalizing before with
  | nil =>
    rw [List.flatMap_nil, List.append_nil, Text.splitWhere_of_not_mem noSlash]
    simp
  | cons segment rest ih =>
    obtain ⟨here, others⟩ := List.forall_mem_cons.1 apart
    rw [List.flatMap_cons, List.cons_append,
      Text.splitWhere_append_cons (p := (· == '/')) (by decide), Text.splitWhere_of_not_mem noSlash,
      List.map_append, ih here others]
    simp

theorem toList_joinSegments (before : String) (segments : List String) :
    (joinSegments before segments).toList =
      Text.joinChars ['/'] ((before :: segments).map String.toList) := by
  unfold joinSegments
  rw [String.toList_ofList]
  induction segments generalizing before with
  | nil => simp [Text.joinChars]
  | cons segment rest ih =>
    rw [List.map_cons, Text.joinChars_cons_of_ne_nil _ _ (by simp), ← ih segment]
    simp

/-- Every reference is made of segments behind slashes. -/
theorem exists_joinSegments (ref : String) : ∃ before segments, '/' ∉ before.toList ∧
    (∀ s ∈ segments, '/' ∉ s.toList) ∧ ref = joinSegments before segments := by
  have apart : ∀ s ∈ Text.splitAt '/' ref, '/' ∉ s.toList := by
    intro s mem here
    obtain ⟨piece, cut, rfl⟩ := List.mem_map.1 mem
    rw [String.toList_ofList] at here
    have other := Name.not_of_mem_splitWhere cut here
    simp at other
  have text : Text.joinChars ['/'] ((Text.splitAt '/' ref).map String.toList) = ref.toList := by
    unfold Text.splitAt
    rw [List.map_map]
    have same : String.toList ∘ String.ofList = id := funext fun _ => String.toList_ofList
    rw [same, List.map_id, Text.join_split]
  have some : Text.splitAt '/' ref ≠ [] := by
    unfold Text.splitAt
    simpa using Text.splitWhere_ne_nil _ _
  obtain ⟨before, segments, split⟩ := List.exists_cons_of_ne_nil some
  rw [split] at apart text
  obtain ⟨noSlash, others⟩ := List.forall_mem_cons.1 apart
  refine ⟨before, segments, noSlash, others, ?_⟩
  rw [← String.toList_inj, toList_joinSegments, text]

/-! ### Following keys -/

/-- Whether keys lead from a spot to another, through mappings. -/
inductive KeysLead (source : Shared) : Spot → List String → Spot → Prop
  | here {x : Spot} : KeysLead source x [] x
  | under {x y z : Spot} {key : String} {rest : List String}
    (found : source.find? x key = some y) (behind : KeysLead source y rest z) :
    KeysLead source x (key :: rest) z

section Following

variable {source : Shared} {x y : Spot} {keys : List String}

theorem follow_eq_some_iff : follow source keys x = some y ↔ KeysLead source x keys y := by
  induction keys generalizing x with
  | nil =>
    constructor
    · intro same
      cases same
      exact .here
    · rintro ⟨⟩
      rfl
  | cons key rest ih =>
    rw [follow, Option.bind_eq_some_iff]
    constructor
    · rintro ⟨z, found, behind⟩
      exact .under found (ih.1 behind)
    · rintro ⟨⟩
      next z found behind => exact ⟨z, found, ih.2 behind⟩

theorem KeysLead.unique {z : Spot} (h : KeysLead source x keys y) (h' : KeysLead source x keys z) :
    y = z := by
  rw [← follow_eq_some_iff] at h h'
  exact Option.some.inj (h.symm.trans h')

end Following

/-- Whether a reference names a spot of its document: behind the first slash, it lists keys that
lead there. -/
def Names (source : Shared) (ref : String) (x : Spot) : Prop :=
  ∃ before segments, '/' ∉ before.toList ∧ (∀ s ∈ segments, '/' ∉ s.toList) ∧
    ref = joinSegments before segments ∧
    KeysLead source source.rootSpot (segments.map unescapeSegment) x

section Resolving

variable {source : Shared} {before : String} {segments : List String} {x : Spot}
  (noSlash : '/' ∉ before.toList) (apart : ∀ s ∈ segments, '/' ∉ s.toList)

include noSlash apart

theorem resolve_joinSegments_of_leads
    (leads : KeysLead source source.rootSpot (segments.map unescapeSegment) x)
    (map : x.value.isMap = true) :
    resolve source (.str (joinSegments before segments)) = pure x := by
  unfold resolve
  have text : (Report.ofOption (Value.str (joinSegments before segments)).str? : Reading String) =
      pure (joinSegments before segments) := rfl
  rw [text, pure_bind, splitAt_joinSegments noSlash apart, List.drop_one, List.tail_cons]
  dsimp only
  rw [follow_eq_some_iff.2 leads, Option.filter_some, if_pos map]

theorem resolve_joinSegments_of_not_leads
    (none : ∀ x, KeysLead source source.rootSpot (segments.map unescapeSegment) x →
      x.value.isMap = false) :
    resolve source (.str (joinSegments before segments)) =
      ⟨[.unresolvedReference (joinSegments before segments)], .ok ⟨.map [], []⟩⟩ := by
  unfold resolve
  have text : (Report.ofOption (Value.str (joinSegments before segments)).str? : Reading String) =
      pure (joinSegments before segments) := rfl
  rw [text, pure_bind, splitAt_joinSegments noSlash apart, List.drop_one, List.tail_cons]
  dsimp only
  cases followed : follow source (segments.map unescapeSegment) source.rootSpot with
  | none => rfl
  | some y =>
    have noMap := none y (follow_eq_some_iff.1 followed)
    rw [Option.filter_some, if_neg (by simp [noMap])]
    rfl

theorem names_joinSegments_iff : Names source (joinSegments before segments) x ↔
    KeysLead source source.rootSpot (segments.map unescapeSegment) x := by
  constructor
  · rintro ⟨before', segments', noSlash', apart', same, leads⟩
    have split := congrArg (Text.splitAt '/') same
    rw [splitAt_joinSegments noSlash apart, splitAt_joinSegments noSlash' apart'] at split
    obtain ⟨-, rfl⟩ := List.cons.inj split
    exact leads
  · intro leads
    exact ⟨before, segments, noSlash, apart, rfl, leads⟩

end Resolving

/-- **What a reference resolves to.** The reference that lists the keys to a mapping resolves to it.
Every reference resolves to the mapping that it names, or else, with one warning, to an empty one.
What it names does not depend on what stands before its first slash. -/
theorem resolve_reference (source : Shared) :
    (∀ keys x, KeysLead source source.rootSpot keys x → x.value.isMap = true →
      resolve source (.str (pointer keys)) = pure x) ∧
    (∀ ref, (∃ x, Names source ref x ∧ x.value.isMap = true ∧
        resolve source (.str ref) = pure x) ∨
      (∀ x, Names source ref x → x.value.isMap = false) ∧
        resolve source (.str ref) = ⟨[.unresolvedReference ref], .ok ⟨.map [], []⟩⟩) ∧
    ∀ before segments, '/' ∉ before.toList → (∀ s ∈ segments, '/' ∉ s.toList) → ∀ x,
      Names source (joinSegments before segments) x ↔
        Names source (joinSegments "#" segments) x := by
  refine ⟨?keys, ?each, ?before⟩
  case keys =>
    intro keys x leads map
    apply resolve_joinSegments_of_leads (by decide) ?_ ?_ map
    · intro segment mem
      obtain ⟨key, -, rfl⟩ := List.mem_map.1 mem
      exact slash_not_mem_escapeKey key
    · have read : (keys.map escapeKey).map unescapeSegment = keys := by
        rw [List.map_map]
        exact List.map_id'' unescapeSegment_escapeKey keys
      rwa [read]
  case each =>
    intro ref
    obtain ⟨before, segments, noSlash, apart, rfl⟩ := exists_joinSegments ref
    by_cases named : ∃ x, Names source (joinSegments before segments) x ∧ x.value.isMap = true
    · obtain ⟨x, names, map⟩ := named
      have leads := (names_joinSegments_iff noSlash apart).1 names
      exact .inl ⟨x, names, map, resolve_joinSegments_of_leads noSlash apart leads map⟩
    · have none : ∀ x, Names source (joinSegments before segments) x → x.value.isMap = false := by
        intro x names
        rw [Bool.eq_false_iff]
        intro map
        exact named ⟨x, names, map⟩
      refine .inr ⟨none, resolve_joinSegments_of_not_leads noSlash apart ?_⟩
      intro x leads
      exact none x ((names_joinSegments_iff noSlash apart).2 leads)
  case before =>
    intro before segments noSlash apart x
    rw [names_joinSegments_iff noSlash apart, names_joinSegments_iff (by decide) apart]

/-- The keys `a/b` and `~1` in a reference. -/
theorem resolve_reference_of_tilde :
    let source : Shared := ⟨.map [(.str "a/b", .map [(.str "~1", .map [])])], [], 0⟩
    pointer ["a/b", "~1"] = "#/a~1b/~01" ∧
      ∃ x, x.value.isMap = true ∧ resolve source (.str "#/a~1b/~01") = pure x := by
  intro source
  have written : pointer ["a/b", "~1"] = "#/a~1b/~01" := by decide
  have leads : KeysLead source source.rootSpot ["a/b", "~1"]
      ⟨.map [], [.entry (.str "~1"), .entry (.str "a/b")]⟩ := .under rfl (.under rfl .here)
  have found := (resolve_reference source).1 _ _ leads rfl
  rw [written] at found
  exact ⟨written, _, rfl, found⟩

/-- A parameter as a document has it. -/
def limitParameter : Value := .map [(.str "name", .str "limit"), (.str "in", .str "query")]

/-- A document with a parameter among its components. -/
def limitSource : Shared where
  root := .map [(.str "components", .map [(.str "parameters", .map [(.str "Limit",
    limitParameter)])])]

/-- A reference to another document resolves to what its keys lead to in this one. -/
theorem resolve_elsewhere :
    let ref := "other.yaml#/components/parameters/Limit"
    Text.startsWith "#" ref = false ∧
      ∃ place, resolve limitSource (.str ref) = pure ⟨limitParameter, place⟩ := by
  intro ref
  have text : ref = joinSegments "other.yaml#" ["components", "parameters", "Limit"] := by decide
  have leads : KeysLead limitSource limitSource.rootSpot
      (["components", "parameters", "Limit"].map unescapeSegment)
      ⟨limitParameter, [.entry (.str "Limit"), .entry (.str "parameters"),
        .entry (.str "components")]⟩ := .under rfl (.under rfl (.under rfl .here))
  have noSlash : '/' ∉ "other.yaml#".toList := by decide
  have found := resolve_joinSegments_of_leads noSlash (by decide) leads rfl
  rw [← text] at found
  exact ⟨by decide, _, found⟩

end ClientGen.Document
