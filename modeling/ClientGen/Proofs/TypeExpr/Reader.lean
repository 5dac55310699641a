import ClientGen.Proofs.TypeExpr.Plain

/-!
# Reading types back

A reader for the words and marks of types (`readType`). An intersection is read as operands between
ampersands and a union as such operands between bars; a parenthesis opens a function if a parameter
follows it, and a type otherwise. The reader takes the name of a property from its key by a function
`nameOf`. It reads every settled type back from its words and marks, up to the names of properties
(`readType_tokens`).
-/

namespace ClientGen.TypeExpr

/-- What a reader makes of words and marks: something read, and what follows it. -/
abbrev Reader (α : Type) := List Token → Option (α × List Token)

variable {α : Type}

/-! ### The reader -/

/-- What follows a mark. -/
def expect (c : Char) : List Token → Option (List Token)
  | .mark d :: rest => if d = c then some rest else none
  | _ => none

/-- Reads at least one item, and others behind marks `c`. -/
def readSeparated (c : Char) (item : Reader α) : Nat → Reader (List α)
  | 0, _ => none
  | n + 1, ts => do
    let (a, rest) ← item ts
    match expect c rest with
    | some more =>
      let (as, after) ← readSeparated c item n more
      return (a :: as, after)
    | none => return ([a], rest)

/-- Reads items between marks `c`, and the mark that closes them. There may be none. -/
def readClosed (c closing : Char) (item : Reader α) (n : Nat) : Reader (List α) := fun ts =>
  match expect closing ts with
  | some rest => some ([], rest)
  | none => do
    let (as, rest) ← readSeparated c item n ts
    return (as, ← expect closing rest)

/-- Reads the marks before a type, which tell whether something may be missing, and the type. -/
def readTyped (sub : Reader TypeExpr) : Reader (Bool × TypeExpr) := fun ts =>
  match expect '?' ts with
  | some more => do
    let (t, rest) ← sub (← expect ':' more)
    return ((true, t), rest)
  | none => do
    let (t, rest) ← sub (← expect ':' ts)
    return ((false, t), rest)

/-- Reads a parameter. -/
def readArgument (sub : Reader TypeExpr) : Reader (Argument TypeExpr)
  | .word name :: ts => do
    let ((o, t), rest) ← readTyped sub ts
    return (⟨String.ofList name, t, o⟩, rest)
  | _ => none

/-- Reads a property. A word before its key says that it is read-only. -/
def readMember (nameOf : String → String) (sub : Reader TypeExpr) : Reader (Member TypeExpr)
  | .word _ :: .word key :: ts => do
    let ((o, t), rest) ← readTyped sub ts
    return (⟨nameOf (String.ofList key), t, o, true⟩, rest)
  | .word key :: ts => do
    let ((o, t), rest) ← readTyped sub ts
    return (⟨nameOf (String.ofList key), t, o, false⟩, rest)
  | _ => none

/-- Whether a parameter or the end of the parameters stands behind a parenthesis. -/
def opensFunction : List Token → Bool
  | .word _ :: .mark c :: _ => c == ':' || c == '?'
  | .mark c :: _ => c == ')'
  | _ => false

/-- Reads the parameters and the result of a function. -/
def readFunction (sub : Reader TypeExpr) (n : Nat) : Reader TypeExpr := fun ts => do
  let (arguments, rest) ← readClosed ',' ')' (readArgument sub) n ts
  let (result, rest) ← sub (← expect '>' (← expect '=' rest))
  return (function arguments (some result), rest)

/-- Reads what stands behind an opening brace. -/
def readBraces (nameOf : String → String) (sub : Reader TypeExpr) (n : Nat) : Reader TypeExpr
  | .mark '[' :: .word _ :: .mark ':' :: .word key :: .mark ']' :: .mark ':' :: ts => do
    let (value, rest) ← sub ts
    return (index (String.ofList key) value, ← expect '\x7d' rest)
  | ts => do
    let (members, rest) ← readClosed ';' '\x7d' (readMember nameOf sub) n ts
    return (object members, rest)

/-- Reads a type that is no union and no intersection, or one in parentheses. -/
def readAtom (nameOf : String → String) (sub : Reader TypeExpr) (n : Nat) : Reader TypeExpr
  | [] => none
  | .word name :: ts =>
    match expect '<' ts with
    | some more => do
      let (arguments, rest) ← readClosed ',' '>' sub n more
      return (ref (String.ofList name) arguments, rest)
    | none => some (literal (String.ofList name), ts)
  | .mark c :: ts =>
    if c = '[' then do
      let (elements, rest) ← readClosed ',' ']' sub n ts
      return (tuple elements, rest)
    else if c = '\x7b' then readBraces nameOf sub n ts
    else if c ≠ '(' then none
    else if opensFunction ts then readFunction sub n ts
    else do
      let (t, rest) ← sub ts
      return (t, ← expect ')' rest)

/-- The only one of several operands, or what is made of them. -/
def combined (form : List TypeExpr → TypeExpr) : List TypeExpr → TypeExpr
  | [t] => t
  | ts => form ts

/-- Reads operands between marks. -/
def readOperands (form : List TypeExpr → TypeExpr) (c : Char) (item : Reader TypeExpr) (n : Nat) :
    Reader TypeExpr := fun ts => do
  let (operands, rest) ← readSeparated c item n ts
  return (combined form operands, rest)

/-- Reads a type in which no more than `n` types stand in one another. -/
def readType (nameOf : String → String) : Nat → Reader TypeExpr
  | 0 => fun _ => none
  | n + 1 =>
    readOperands union '|'
      (readOperands inter '&' (readAtom nameOf (readType nameOf n) (n + 1)) (n + 1)) (n + 1)

/-! ### What is read -/

/-- Whether the first of words and marks is none of some marks. -/
def Free (marks : List Char) (ts : List Token) : Prop :=
  ∀ c ∈ marks, ts.head? ≠ some (.mark c)

/-- Whether a reader reads words and marks as a value, in front of what does not begin with some
marks. -/
def ReadsAs (reader : Reader α) (marks : List Char) (f : List Token → List Token) (a : α) : Prop :=
  ∀ rest, Free marks rest → reader (f rest) = some (a, rest)

theorem expect_mark (c : Char) (rest : List Token) : expect c (.mark c :: rest) = some rest :=
  if_pos rfl

theorem expect_of_free {c : Char} {ts : List Token} (free : Free [c] ts) : expect c ts = none := by
  cases ts with
  | nil => rfl
  | cons t rest =>
    cases t with
    | word cs => rfl
    | mark d =>
      refine if_neg fun same => ?_
      rw [same] at free
      exact free c List.mem_cons_self rfl

theorem free_mark {c : Char} {marks : List Char} (other : c ∉ marks) (rest : List Token) :
    Free marks (.mark c :: rest) := by
  rintro d mem first
  obtain rfl : c = d := by simpa using first
  exact other mem

theorem Free.mono {marks marks' : List Char} {ts : List Token} (h : Free marks ts)
    (sub : marks' ⊆ marks) : Free marks' ts :=
  fun c mem => h c (sub mem)

theorem ReadsAs.mono {reader : Reader α} {marks marks' : List Char}
    {f : List Token → List Token} {a : α} (h : ReadsAs reader marks f a) (sub : marks ⊆ marks') :
    ReadsAs reader marks' f a :=
  fun rest free => h rest (free.mono sub)

section lists

variable {β : Type} {item : Reader β} {c : Char} {marks : List Char}
  {tokensOf : α → List Token → List Token} {valueOf : α → β} {xs : List α}

/-- Items are read one by one. -/
theorem readSeparated_separated (h : ∀ x ∈ xs, ReadsAs item marks (tokensOf x) (valueOf x))
    (other : c ∉ marks) (nonempty : xs ≠ []) {n : Nat} (enough : xs.length ≤ n) :
    ReadsAs (readSeparated c item n) (c :: marks) (separated c (xs.map tokensOf))
      (xs.map valueOf) := by
  intro rest free
  induction xs generalizing n with
  | nil => exact absurd rfl nonempty
  | cons x xs ih =>
    obtain ⟨first, others⟩ := List.forall_mem_cons.1 h
    cases n with
    | zero => nomatch enough
    | succ n =>
      cases xs with
      | nil =>
        have read : item (tokensOf x rest) = some (valueOf x, rest) :=
          first rest (free.mono (List.subset_cons_self c marks))
        have stop : expect c rest = none := expect_of_free (free.mono (by simp))
        show readSeparated c item (n + 1) (tokensOf x rest) = some ([valueOf x], rest)
        simp only [readSeparated, read, stop, Option.bind_eq_bind, Option.bind_some]
        rfl
      | cons y ys =>
        have more := ih others (List.cons_ne_nil y ys) (Nat.le_of_succ_le_succ enough)
        have read := first (.mark c :: separated c ((y :: ys).map tokensOf) rest)
          (free_mark other _)
        show readSeparated c item (n + 1)
          (tokensOf x (.mark c :: separated c ((y :: ys).map tokensOf) rest)) = _
        simp only [readSeparated, read, expect_mark, more, Option.bind_eq_bind, Option.bind_some]
        rfl

/-- Items and the mark that closes them are read, if no item begins with that mark. -/
theorem readClosed_separated {closing : Char}
    (h : ∀ x ∈ xs, ReadsAs item marks (tokensOf x) (valueOf x))
    (begins : ∀ x ∈ xs, ∀ d ∈ [c, closing], ∀ more, Free [closing] (tokensOf x (.mark d :: more)))
    (other : c ∉ marks)
    (others : closing ∉ c :: marks) {n : Nat} (enough : xs.length ≤ n) (rest : List Token) :
    readClosed c closing item n (separated c (xs.map tokensOf) (.mark closing :: rest)) =
      some (xs.map valueOf, rest) := by
  cases xs with
  | nil =>
    show readClosed c closing item n (.mark closing :: rest) = _
    simp only [readClosed, expect_mark]
    rfl
  | cons x xs =>
    have read := readSeparated_separated h other (List.cons_ne_nil x xs) enough
      (.mark closing :: rest) (free_mark others rest)
    have notClosed : Free [closing]
        (separated c ((x :: xs).map tokensOf) (.mark closing :: rest)) := by
      cases xs with
      | nil => exact begins x List.mem_cons_self closing (by simp) _
      | cons y ys => exact begins x List.mem_cons_self c List.mem_cons_self _
    simp only [readClosed, expect_of_free notClosed, read, expect_mark, Option.bind_eq_bind,
      Option.bind_some]
    rfl

end lists

/-! ### How types begin -/

/-- Whether words and marks begin as those of a type do, and not as a parameter or a property. -/
def Begins : List Token → Prop
  | .word _ :: rest => Free [':', '?'] rest
  | .mark c :: _ => c ∈ ['(', '[', '\x7b']
  | [] => False

theorem Begins.opensFunction_eq {ts : List Token} (h : Begins ts) : opensFunction ts = false := by
  match ts with
  | .mark c :: rest =>
    have opening : c ∈ ['(', '[', '\x7b'] := h
    refine beq_eq_false_iff_ne.2 ?_
    rintro rfl
    exact absurd opening (by decide)
  | [.word cs] => rfl
  | .word cs :: .word ds :: rest => rfl
  | .word cs :: .mark c :: rest =>
    rw [opensFunction, Bool.or_eq_false_iff, beq_eq_false_iff_ne, beq_eq_false_iff_ne]
    constructor
    · rintro rfl
      exact h ':' (by decide) rfl
    · rintro rfl
      exact h '?' (by decide) rfl

theorem Begins.free {ts : List Token} (h : Begins ts) {closing : Char}
    (other : closing ∉ ['(', '[', '\x7b']) : Free [closing] ts := by
  intro d mem first
  obtain rfl : d = closing := List.mem_singleton.1 mem
  match ts with
  | .word cs :: rest => nomatch first
  | .mark c :: rest =>
    obtain rfl : c = d := by simpa using first
    exact other h

theorem begins_separated {c : Char} {tokensOf : α → List Token → List Token} {xs : List α}
    (h : ∀ x ∈ xs, ∀ after, Free [':', '?'] after → Begins (tokensOf x after)) (nonempty : xs ≠ [])
    (other : c ∉ [':', '?']) {after : List Token} (free : Free [':', '?'] after) :
    Begins (separated c (xs.map tokensOf) after) := by
  cases xs with
  | nil => exact absurd rfl nonempty
  | cons x xs =>
    have first := h x List.mem_cons_self
    cases xs with
    | nil => exact first after free
    | cons y ys => exact first _ (free_mark other _)

theorem begins_inParentheses {f : List Token → List Token} {needed : Bool}
    (h : ∀ after, Free [':', '?'] after → Begins (f after)) (after : List Token)
    (free : Free [':', '?'] after) : Begins (inParentheses needed f after) := by
  cases needed with
  | false => exact h after free
  | true => exact List.mem_cons_self

theorem begins_tokens {t : TypeExpr} (settled : Settled t) (after : List Token)
    (free : Free [':', '?'] after) : Begins (tokens t after) := by
  induction t using inductionOnChildren generalizing after with
  | step t ih =>
  obtain ⟨here, below⟩ := everywhere_iff.1 settled
  cases t with
  | primitive | generic | array => exact here.elim
  | literal text => exact free
  | ref name arguments =>
    cases arguments with
    | nil => exact absurd rfl here
    | cons a as => exact free_mark (by decide) _
  | tuple | object | index | function => exact show _ ∈ _ by decide
  | union members =>
    rw [tokens_union]
    refine begins_separated (fun m mem => ?_) (ne_nil_of_two_le here.1) (by decide) free
    exact begins_inParentheses (ih m mem (below m mem))
  | inter members =>
    rw [tokens_inter]
    refine begins_separated (fun m mem => ?_) (ne_nil_of_two_le here.1) (by decide) free
    exact begins_inParentheses (ih m mem (below m mem))

/-! ### Types in front of others -/

/-- The marks that go on with a type. -/
def typeMarks : List Char := ['|', '&', '<']

variable {nameOf : String → String} {sub : Reader TypeExpr} {n : Nat}

/-- A type with the names that its properties are read back with. -/
def readBack (nameOf : String → String) (t : TypeExpr) : TypeExpr :=
  renameProperties (nameOf ∘ Name.propertyKey) t

theorem readTyped_typeMark {t u : TypeExpr} {rest : List Token}
    (h : sub (tokens t rest) = some (u, rest)) (o : Bool) :
    readTyped sub (typeMark o (tokens t rest)) = some ((o, u), rest) := by
  cases o with
  | false =>
    have required : expect '?' (.mark ':' :: tokens t rest) = none := rfl
    show readTyped sub (.mark ':' :: tokens t rest) = _
    simp only [readTyped, required, expect_mark, h, Option.bind_eq_bind, Option.bind_some]
    rfl
  | true =>
    show readTyped sub (.mark '?' :: .mark ':' :: tokens t rest) = _
    simp only [readTyped, expect_mark, h, Option.bind_eq_bind, Option.bind_some]
    rfl

theorem readArgument_argumentTokens {a : Argument TypeExpr} {u : TypeExpr}
    (h : ReadsAs sub typeMarks (tokens a.type) u) :
    ReadsAs (readArgument sub) typeMarks (argumentTokens a) { a with type := u } := by
  intro rest free
  rw [argumentTokens, readArgument, readTyped_typeMark (h rest free)]
  simp only [Option.bind_eq_bind, Option.bind_some, String.ofList_toList]
  rfl

theorem readMember_memberTokens {m : Member TypeExpr} {u : TypeExpr}
    (h : ReadsAs sub typeMarks (tokens m.type) u) :
    ReadsAs (readMember nameOf sub) typeMarks (memberTokens m)
      { m with name := nameOf (Name.propertyKey m.name), type := u } := by
  intro rest free
  obtain ⟨name, t, o, r⟩ := m
  have typed := readTyped_typeMark (h rest free) o
  cases r with
  | true =>
    show readMember nameOf sub (.word _ :: .word _ :: typeMark o (tokens t rest)) = _
    rw [readMember, typed]
    simp only [Option.bind_eq_bind, Option.bind_some, String.ofList_toList]
    rfl
  | false =>
    have key : readMember nameOf sub
        (.word (Name.propertyKey name).toList :: typeMark o (tokens t rest)) =
        (readTyped sub (typeMark o (tokens t rest))).bind fun r =>
          some (⟨nameOf (String.ofList (Name.propertyKey name).toList), r.1.2, r.1.1, false⟩,
            r.2) := by
      cases o <;> rfl
    show readMember nameOf sub (.word _ :: typeMark o (tokens t rest)) = _
    rw [key, typed, Option.bind_some, String.ofList_toList]

/-- Whether a type is neither operands between marks nor a function. -/
def IsClosed : TypeExpr → Prop
  | union _ | inter _ | function _ _ => False
  | _ => True

/-- A list of types, and the mark that closes it. -/
theorem readClosed_tokens {ts : List TypeExpr} (settled : ∀ t ∈ ts, Settled t)
    (h : ∀ t ∈ ts, ReadsAs sub typeMarks (tokens t) (readBack nameOf t)) {closing : Char}
    (closes : closing = '>' ∨ closing = ']') (enough : ts.length ≤ n) (rest : List Token) :
    readClosed ',' closing sub n (separated ',' (ts.map tokens) (.mark closing :: rest)) =
      some (ts.map (readBack nameOf), rest) := by
  have marks : closing ∉ ['(', '[', '\x7b'] ∧ closing ∉ ',' :: typeMarks ∧
      closing ∉ [':', '?'] := by
    rcases closes with rfl | rfl <;> decide
  refine readClosed_separated h (fun t mem d among more => ?_) (by decide) marks.2.1 enough rest
  refine (begins_tokens (settled t mem) _ (free_mark ?_ more)).free marks.1
  rcases List.mem_cons.1 among with rfl | last
  · decide
  · rw [List.mem_singleton.1 last]
    exact marks.2.2

/-- Properties, and the brace that closes them. -/
theorem readClosed_memberTokens {ms : List (Member TypeExpr)}
    (h : ∀ m ∈ ms, ReadsAs sub typeMarks (tokens m.type) (readBack nameOf m.type))
    (enough : ms.length ≤ n) (rest : List Token) :
    readClosed ';' '\x7d' (readMember nameOf sub) n
      (separated ';' (ms.map memberTokens) (.mark '\x7d' :: rest)) =
      some (ms.map fun m =>
        { m with name := nameOf (Name.propertyKey m.name), type := readBack nameOf m.type },
        rest) := by
  refine readClosed_separated (fun m mem => readMember_memberTokens (h m mem))
    (fun m _ d _ more => ?_) (by decide) (by decide) enough rest
  obtain ⟨cs, after, word⟩ := exists_memberTokens m (.mark d :: more)
  rw [word]
  exact fun _ _ => nofun

/-- Parameters, and the parenthesis that closes them. -/
theorem readClosed_argumentTokens {as : List (Argument TypeExpr)}
    (h : ∀ a ∈ as, ReadsAs sub typeMarks (tokens a.type) (readBack nameOf a.type))
    (enough : as.length ≤ n) (rest : List Token) :
    readClosed ',' ')' (readArgument sub) n
      (separated ',' (as.map argumentTokens) (.mark ')' :: rest)) =
      some (as.map fun a => { a with type := readBack nameOf a.type }, rest) :=
  readClosed_separated (fun a mem => readArgument_argumentTokens (h a mem))
    (fun _ _ _ _ _ _ _ => nofun) (by decide) (by decide) enough rest

/-- What stands behind a brace is no index signature if a property or the closing brace does. -/
theorem readBraces_object {ms : List (Member TypeExpr)} {rest : List Token} :
    readBraces nameOf sub n (separated ';' (ms.map memberTokens) (.mark '\x7d' :: rest)) =
      (readClosed ';' '\x7d' (readMember nameOf sub) n
        (separated ';' (ms.map memberTokens) (.mark '\x7d' :: rest))).bind
          fun r => some (object r.1, r.2) := by
  cases ms with
  | nil => rfl
  | cons m ms =>
    have first : ∃ cs more,
        separated ';' ((m :: ms).map memberTokens) (.mark '\x7d' :: rest) = .word cs :: more := by
      cases ms with
      | nil => exact exists_memberTokens m _
      | cons m' ms => exact exists_memberTokens m _
    obtain ⟨cs, more, first⟩ := first
    rw [first]
    rfl

/-- A type that marks or a word enclose is read whatever follows it but an angle. -/
theorem readAtom_tokens {t : TypeExpr} (settled : Settled t) (closed : t.IsClosed)
    (below : ∀ u ∈ t.children, ReadsAs sub typeMarks (tokens u) (readBack nameOf u))
    (enough : t.children.length ≤ n) :
    ReadsAs (readAtom nameOf sub n) ['<'] (tokens t) (readBack nameOf t) := by
  intro rest free
  obtain ⟨here, settledBelow⟩ := everywhere_iff.1 settled
  rw [readBack, renameProperties_eq]
  cases t with
  | primitive | generic | array => exact here.elim
  | union | inter | function => exact closed.elim
  | literal text =>
    show readAtom nameOf sub n (.word text.toList :: rest) = _
    simp only [readAtom, expect_of_free free, String.ofList_toList]
    rfl
  | ref name arguments =>
    cases arguments with
    | nil => exact absurd rfl here
    | cons a as =>
      have items : readClosed ',' '>' sub n
          (separated ',' ((a :: as).map tokens) (.mark '>' :: rest)) =
          some ((a :: as).map (readBack nameOf), rest) :=
        readClosed_tokens settledBelow below (.inl rfl) enough rest
      rw [tokens_ref]
      show readAtom nameOf sub n (.word name.toList :: .mark '<' ::
        separated ',' ((a :: as).map tokens) (.mark '>' :: rest)) = _
      rw [readAtom, expect_mark]
      dsimp only
      rw [items, String.ofList_toList]
      rfl
  | tuple elements =>
    have items : readClosed ',' ']' sub n
        (separated ',' (elements.map tokens) (.mark ']' :: rest)) =
        some (elements.map (readBack nameOf), rest) :=
      readClosed_tokens settledBelow below (.inr rfl) enough rest
    rw [tokens_tuple]
    show readAtom nameOf sub n (.mark '[' ::
      separated ',' (elements.map tokens) (.mark ']' :: rest)) = _
    rw [readAtom, if_pos rfl, items]
    rfl
  | object members =>
    rw [children, List.length_map] at enough
    have parts : ∀ m ∈ members, ReadsAs sub typeMarks (tokens m.type) (readBack nameOf m.type) :=
      fun m mem => below m.type (List.mem_map_of_mem mem)
    have items := readClosed_memberTokens parts enough rest
    rw [tokens_object]
    show readAtom nameOf sub n (.mark '\x7b' ::
      separated ';' (members.map memberTokens) (.mark '\x7d' :: rest)) = _
    rw [readAtom, if_neg (by decide), if_pos rfl, readBraces_object, items, mapChildren, renameNode,
      List.map_map]
    rfl
  | index key value =>
    have inside := below value List.mem_cons_self (.mark '\x7d' :: rest)
      (free_mark (by decide) rest)
    show readBraces nameOf sub n (.mark '[' :: .word "key".toList :: .mark ':' ::
      .word key.toList :: .mark ']' :: .mark ':' :: tokens value (.mark '\x7d' :: rest)) = _
    rw [readBraces, inside]
    simp only [Option.bind_eq_bind, Option.bind_some, expect_mark, String.ofList_toList]
    rfl

theorem opensFunction_arguments (arguments : List (Argument TypeExpr)) (rest : List Token) :
    opensFunction (separated ',' (arguments.map argumentTokens) (.mark ')' :: rest)) = true := by
  have first (a : Argument TypeExpr) (after : List Token) :
      opensFunction (argumentTokens a after) = true := by
    rw [argumentTokens]
    cases a.isOptional <;> rfl
  cases arguments with
  | nil => rfl
  | cons a as =>
    cases as with
    | nil => exact first a _
    | cons b bs => exact first a _

/-- A function is read where nothing goes on with its result. -/
theorem readAtom_function {arguments : List (Argument TypeExpr)} {result : TypeExpr}
    (below : ∀ u ∈ (function arguments (some result)).children,
      ReadsAs sub typeMarks (tokens u) (readBack nameOf u))
    (enough : (function arguments (some result)).children.length ≤ n) :
    ReadsAs (readAtom nameOf sub n) typeMarks (tokens (function arguments (some result)))
      (readBack nameOf (function arguments (some result))) := by
  intro rest free
  have fewer : arguments.length ≤ n := by
    rw [children, List.length_append, List.length_map] at enough
    omega
  have returned := below result (List.mem_append_right _ List.mem_cons_self) rest free
  have items := readClosed_argumentTokens
    (fun a mem => below a.type (List.mem_append_left _ (List.mem_map_of_mem mem))) fewer
    (.mark '=' :: .mark '>' :: tokens result rest)
  rw [readBack, renameProperties_eq, tokens_function]
  show readAtom nameOf sub n (.mark '(' :: separated ',' (arguments.map argumentTokens)
    (.mark ')' :: .mark '=' :: .mark '>' :: tokens result rest)) = _
  rw [readAtom, if_neg (by decide), if_neg (by decide), if_neg (by decide),
    opensFunction_arguments, if_pos rfl, readFunction, items]
  simp only [Option.bind_eq_bind, Option.bind_some, expect_mark, returned]
  rfl

/-- A type in parentheses is read whatever follows. -/
theorem readAtom_parenthesized {t u : TypeExpr} (settled : Settled t)
    (h : ReadsAs sub typeMarks (tokens t) u) :
    ReadsAs (readAtom nameOf sub n) ['<'] (inParentheses true (tokens t)) u := by
  intro rest _
  have begins := begins_tokens settled (.mark ')' :: rest) (free_mark (by decide) rest)
  have inside := h (.mark ')' :: rest) (free_mark (by decide) rest)
  show readAtom nameOf sub n (.mark '(' :: tokens t (.mark ')' :: rest)) = _
  rw [readAtom, if_neg (by decide), if_neg (by decide), if_neg (by decide),
    begins.opensFunction_eq, if_neg nofun, inside]
  simp only [Option.bind_eq_bind, Option.bind_some, expect_mark]
  rfl

/-! ### Operands -/

section operands

variable {form : List TypeExpr → TypeExpr} {c : Char} {item : Reader TypeExpr} {marks : List Char}

theorem readOperands_one {f : List Token → List Token} {u : TypeExpr}
    (h : ReadsAs item marks f u) : ReadsAs (readOperands form c item (n + 1)) (c :: marks) f u := by
  intro rest free
  have read := h rest (free.mono (List.subset_cons_self c marks))
  have stop : expect c rest = none := expect_of_free (free.mono (by simp))
  simp only [readOperands, readSeparated, read, stop, Option.bind_eq_bind, Option.bind_some]
  rfl

theorem readOperands_many {tokensOf : TypeExpr → List Token → List Token} {ts : List TypeExpr}
    (h : ∀ t ∈ ts, ReadsAs item marks (tokensOf t) (readBack nameOf t)) (other : c ∉ marks)
    (several : 2 ≤ ts.length) (enough : ts.length ≤ n) :
    ReadsAs (readOperands form c item n) (c :: marks) (separated c (ts.map tokensOf))
      (form (ts.map (readBack nameOf))) := by
  intro rest free
  have read := readSeparated_separated h other (ne_nil_of_two_le several) enough rest free
  simp only [readOperands, read, Option.bind_eq_bind, Option.bind_some]
  match ts with
  | _ :: _ :: _ => rfl

end operands

/-! ### All types -/

/-- Reads an operand of an intersection. -/
def readFactor (nameOf : String → String) (n : Nat) : Reader TypeExpr :=
  readAtom nameOf (readType nameOf n) (n + 1)

/-- Reads an operand of a union. -/
def readTerm (nameOf : String → String) (n : Nat) : Reader TypeExpr :=
  readOperands inter '&' (readFactor nameOf n) (n + 1)

theorem readType_succ (nameOf : String → String) (n : Nat) :
    readType nameOf (n + 1) = readOperands union '|' (readTerm nameOf n) (n + 1) := rfl

theorem length_le_sizeOf {α : Type} [SizeOf α] (xs : List α) : xs.length ≤ sizeOf xs := by
  induction xs with
  | nil => exact Nat.zero_le _
  | cons x xs ih =>
    rw [List.length_cons, List.cons.sizeOf_spec]
    omega

theorem length_children_le (t : TypeExpr) : t.children.length ≤ sizeOf t := by
  have list {α : Type} [SizeOf α] (xs : List α) := length_le_sizeOf xs
  cases t with
  | primitive | generic | literal => exact Nat.zero_le _
  | array element =>
    rw [children, List.length_singleton, array.sizeOf_spec]
    omega
  | index key value =>
    rw [children, List.length_singleton, index.sizeOf_spec]
    omega
  | ref name ts =>
    rw [children, ref.sizeOf_spec]
    have := list ts
    omega
  | tuple ts =>
    rw [children, tuple.sizeOf_spec]
    have := list ts
    omega
  | union ts =>
    rw [children, union.sizeOf_spec]
    have := list ts
    omega
  | inter ts =>
    rw [children, inter.sizeOf_spec]
    have := list ts
    omega
  | object ms =>
    rw [children, List.length_map, object.sizeOf_spec]
    have := list ms
    omega
  | function as r =>
    rw [children, List.length_append, List.length_map, function.sizeOf_spec]
    have := list as
    have : r.toList.length ≤ 1 := by cases r <;> simp
    omega

theorem sizeOf_pos (t : TypeExpr) : 0 < sizeOf t := by
  cases t <;> simp only [primitive.sizeOf_spec, generic.sizeOf_spec, literal.sizeOf_spec,
    array.sizeOf_spec, index.sizeOf_spec, ref.sizeOf_spec, tuple.sizeOf_spec, union.sizeOf_spec,
    inter.sizeOf_spec, object.sizeOf_spec, function.sizeOf_spec] <;> omega

/-- Whether a type is read back with `n` types in one another, alone and as an operand. -/
structure Readable (nameOf : String → String) (t : TypeExpr) (n : Nat) : Prop where
  asType : ReadsAs (readType nameOf n) typeMarks (tokens t) (readBack nameOf t)
  asTerm : (∀ ms, t ≠ union ms) →
    ReadsAs (readTerm nameOf n) ['&', '<'] (inParentheses t.wrapsInUnion (tokens t))
      (readBack nameOf t)
  asFactor : (∀ ms, t ≠ inter ms) →
    ReadsAs (readFactor nameOf n) ['<'] (inParentheses t.wrapsInInter (tokens t))
      (readBack nameOf t)

theorem readBack_union (ms : List TypeExpr) :
    readBack nameOf (union ms) = union (ms.map (readBack nameOf)) :=
  renameProperties_eq _ _

theorem readBack_inter (ms : List TypeExpr) :
    readBack nameOf (inter ms) = inter (ms.map (readBack nameOf)) :=
  renameProperties_eq _ _

/-- An intersection is read if its members are as operands. -/
theorem readTerm_inter {ms : List TypeExpr} (settled : Settled (inter ms))
    (enough : ms.length ≤ n + 1) (below : ∀ m ∈ ms, Readable nameOf m n) :
    ReadsAs (readTerm nameOf n) ['&', '<'] (tokens (inter ms)) (readBack nameOf (inter ms)) := by
  obtain ⟨⟨several, noInter⟩, -⟩ := everywhere_iff.1 settled
  rw [tokens_inter, readBack_inter]
  exact readOperands_many (fun m mem => (below m mem).asFactor (noInter m mem)) (by decide) several
    enough

/-- A type that is no intersection is an operand of an intersection in a union. -/
theorem readTerm_of_readFactor {f : List Token → List Token} {u : TypeExpr}
    (h : ReadsAs (readFactor nameOf n) ['<'] f u) : ReadsAs (readTerm nameOf n) ['&', '<'] f u :=
  readOperands_one h

/-- A type is read alone if the types in it are read. -/
theorem readType_of_children {t : TypeExpr} (settled : Settled t)
    (enough : t.children.length ≤ n + 1) (below : ∀ u ∈ t.children, Readable nameOf u n) :
    ReadsAs (readType nameOf (n + 1)) typeMarks (tokens t) (readBack nameOf t) := by
  have alone : ∀ u ∈ t.children, ReadsAs (readType nameOf n) typeMarks (tokens u)
      (readBack nameOf u) := fun u mem => (below u mem).asType
  rw [readType_succ]
  cases t with
  | union ms =>
    obtain ⟨⟨several, noUnion⟩, -⟩ := everywhere_iff.1 settled
    rw [tokens_union, readBack_union]
    exact readOperands_many (fun m mem => (below m mem).asTerm (noUnion m mem)) (by decide) several
      enough
  | inter ms => exact readOperands_one (readTerm_inter settled enough below)
  | function arguments result =>
    cases result with
    | none => exact (everywhere_iff.1 settled).1.elim
    | some result =>
      exact (readOperands_one (readOperands_one (readAtom_function alone enough))).mono (by decide)
  | _ => exact readOperands_one (readOperands_one (readAtom_tokens settled trivial alone enough))

/-- Every settled type is read back. -/
theorem readable {t : TypeExpr} (settled : Settled t) (enough : sizeOf t ≤ n) :
    Readable nameOf t n := by
  induction t using inductionOnChildren generalizing n with
  | step t ih =>
  obtain ⟨-, settledBelow⟩ := everywhere_iff.1 settled
  have below (m : Nat) (bound : sizeOf t ≤ m + 1) : ∀ u ∈ t.children, Readable nameOf u m := by
    intro u mem
    have smaller := sizeOf_lt_of_mem_children mem
    exact ih u mem (settledBelow u mem) (by omega)
  have few := length_children_le t
  have asType : ReadsAs (readType nameOf n) typeMarks (tokens t) (readBack nameOf t) := by
    obtain ⟨m, rfl⟩ := Nat.exists_eq_succ_of_ne_zero (n := n) (by have := sizeOf_pos t; omega)
    exact readType_of_children settled (by omega) (below m enough)
  have inParens : ReadsAs (readFactor nameOf n) ['<'] (inParentheses true (tokens t))
      (readBack nameOf t) := readAtom_parenthesized settled asType
  have atom (closed : t.IsClosed) :
      ReadsAs (readFactor nameOf n) ['<'] (tokens t) (readBack nameOf t) :=
    readAtom_tokens settled closed (fun u mem => (below n (by omega) u mem).asType) (by omega)
  refine ⟨asType, fun noUnion => ?_, fun noInter => ?_⟩
  · cases t with
    | union ms => exact absurd rfl (noUnion ms)
    | inter ms =>
      exact readTerm_inter settled (Nat.le_trans few (Nat.le_succ_of_le enough))
        (below n (Nat.le_succ_of_le enough))
    | function => exact readTerm_of_readFactor inParens
    | _ => exact readTerm_of_readFactor (atom trivial)
  · cases t with
    | inter ms => exact absurd rfl (noInter ms)
    | union | function => exact inParens
    | _ => exact atom trivial

end ClientGen.TypeExpr
