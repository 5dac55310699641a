import ClientGen.Proofs.Decl.Width
import ClientGen.Proofs.Layout.Added
import ClientGen.Proofs.TypeExpr.Normal

/-!
# The parameters of a method

**A signature has all of its parameters in their order** (`Signature.text_parameters`). Those of the
longest suffix in which all are optional are marked. Every other one is written as a required one
is, and if it is optional, with the union of its type and `undefined`. Which parameters are marked is
found along the list (`exists_splits`), and a list in parentheses adds the texts of its items
whatever they are (`exists_place_parentheses`).
-/

namespace ClientGen

open Layout

/-! ### Texts of types -/

/-- Whether a text is what laying out a type adds to some page. But for blank space and separators
before closing marks it is the text of the type. -/
def TypeExpr.IsText (width : Int) (t : TypeExpr) (w : String) : Prop :=
  LaidOut width t.doc w ∧ squeezed w = squeezed (t.text width)

variable {width : Int} {w : String}

theorem TypeExpr.isText_of_laidOut {t : TypeExpr} (h : LaidOut width t.doc w) : t.IsText width w :=
  ⟨h, t.steady_doc.squeezed_of_laidOut h width⟩

/-! ### How a parameter is written -/

namespace MethodParameter

/-- The type that a parameter has as a required one. -/
def requiredType (p : MethodParameter) : TypeExpr :=
  if p.isOptional then TypeExpr.unionOf [p.type, .undefined] else p.type

/-- The text of the default behind the type. -/
def defaultText (p : MethodParameter) : String := (p.default.map (" = " ++ ·)).getD ""

/-- The layout of a parameter that is required, or that a required one follows. -/
def plainDoc (p : MethodParameter) : Doc :=
  if p.isOptional then .text (p.name ++ ": ") ++ (TypeExpr.unionOf [p.type, .undefined]).doc
  else .text (p.name ++ ": ") ++ p.type.doc ++ .text p.defaultText

/-- The layout of a parameter that is optional as all after it are. -/
def markedDoc (p : MethodParameter) : Doc :=
  .text (p.name ++ "?: ") ++ p.type.doc ++ .text p.defaultText

/-- Whether a text is a parameter without a mark. A default stands behind a required one only. -/
def WritesPlain (width : Int) (p : MethodParameter) (w : String) : Prop :=
  ∃ u, p.requiredType.IsText width u ∧
    w = p.name ++ ": " ++ u ++ if p.isOptional then "" else p.defaultText

/-- Whether a text is a parameter with the mark of an optional one. -/
def WritesMarked (width : Int) (p : MethodParameter) (w : String) : Prop :=
  ∃ u, p.type.IsText width u ∧ w = p.name ++ "?: " ++ u ++ p.defaultText

variable {p : MethodParameter}

/-- A union with `undefined` has the members of the type and `undefined`, and no other. -/
theorem mem_requiredType (optional : p.isOptional = true) {t : TypeExpr} :
    t ∈ p.requiredType.unionMembers ↔ t ∈ p.type.unionMembers ∨ t = .undefined := by
  have plain : TypeExpr.undefined.unionMembers = [.undefined] := rfl
  have member : TypeExpr.undefined ∈ [p.type, .undefined] := by simp
  rw [requiredType, if_pos optional, TypeExpr.mem_unionMembers_unionOf_iff member plain]
  simp [plain]

theorem exists_text_of_laidOut {head : String} {t : TypeExpr}
    (h : LaidOut width (.text head ++ t.doc) w) : ∃ u, t.IsText width u ∧ w = head ++ u := by
  obtain ⟨front, u, first, second, rfl⟩ := (adds_text head).laidOut_append t.adds_doc h
  rw [eq_of_laidOut_text first]
  exact ⟨u, TypeExpr.isText_of_laidOut second, rfl⟩

theorem exists_text_of_laidOut_behind {head behind : String} {t : TypeExpr}
    (h : LaidOut width (.text head ++ t.doc ++ .text behind) w) :
    ∃ u, t.IsText width u ∧ w = head ++ u ++ behind := by
  obtain ⟨front, last, first, second, rfl⟩ :=
    ((adds_text head).append t.adds_doc).laidOut_append (adds_text behind) h
  obtain ⟨u, typed, rfl⟩ := exists_text_of_laidOut first
  rw [eq_of_laidOut_text second]
  exact ⟨u, typed, rfl⟩

theorem writesPlain_of_laidOut (h : LaidOut width p.plainDoc w) : p.WritesPlain width w := by
  rw [plainDoc] at h
  rw [WritesPlain, requiredType]
  split at h
  · next optional =>
    obtain ⟨u, typed, rfl⟩ := exists_text_of_laidOut h
    rw [if_pos optional, if_pos optional]
    exact ⟨u, typed, (String.append_empty).symm⟩
  · next required =>
    obtain ⟨u, typed, rfl⟩ := exists_text_of_laidOut_behind h
    rw [if_neg required, if_neg required]
    exact ⟨u, typed, rfl⟩

theorem writesMarked_of_laidOut (h : LaidOut width p.markedDoc w) : p.WritesMarked width w :=
  exists_text_of_laidOut_behind h

theorem adds_plainDoc (p : MethodParameter) : Adds p.plainDoc := by
  rw [plainDoc]
  split
  · exact (adds_text _).append (TypeExpr.adds_doc _)
  · exact ((adds_text _).append p.type.adds_doc).append (adds_text _)

theorem adds_markedDoc (p : MethodParameter) : Adds p.markedDoc :=
  ((adds_text _).append p.type.adds_doc).append (adds_text _)

end MethodParameter

/-! ### Which parameters are marked -/

/-- Whether parameters are some, and after them the longest suffix in which all are optional. -/
structure Splits (ps plain marked : List MethodParameter) : Prop where
  append : ps = plain ++ marked
  optional : ∀ p ∈ marked, p.isOptional = true
  longest : ∀ more, more <:+ ps → (∀ p ∈ more, p.isOptional = true) → more <:+ marked

/-- A suffix of optional parameters that a required one precedes is the longest. -/
theorem splits_of_last_required {plain marked : List MethodParameter}
    (optional : ∀ p ∈ marked, p.isOptional = true)
    (required : ∀ p ∈ plain.getLast?, p.isOptional = false) :
    Splits (plain ++ marked) plain marked where
  append := rfl
  optional := optional
  longest more ends all := by
    rcases List.suffix_or_suffix_of_suffix ends (List.suffix_append plain marked) with
      within | ⟨between, rfl⟩
    · exact within
    · -- a longer suffix would begin in `plain` and so have the required one in it
      obtain ⟨before, whole⟩ := ends
      rw [← List.append_assoc, List.append_left_inj] at whole
      rcases List.eq_nil_or_concat between with rfl | ⟨others, last, rfl⟩
      · exact List.suffix_refl _
      · have lastRequired := required last (by rw [← whole]; simp)
        have lastOptional := all last (by simp)
        exact absurd (lastRequired.symm.trans lastOptional) nofun

/-- The layouts of parameters are those of the plain ones and those of the marked ones. -/
theorem exists_splits (ps : List MethodParameter) : ∃ plain marked, Splits ps plain marked ∧
    parameterDocs ps = plain.map (·.plainDoc) ++ marked.map (·.markedDoc) := by
  suffices split : ∃ plain marked, ps = plain ++ marked ∧ (∀ p ∈ marked, p.isOptional = true) ∧
      (∀ p ∈ plain.getLast?, p.isOptional = false) ∧
      parameterDocs ps = plain.map (·.plainDoc) ++ marked.map (·.markedDoc) by
    obtain ⟨plain, marked, rfl, optional, required, docs⟩ := split
    exact ⟨plain, marked, splits_of_last_required optional required, docs⟩
  induction ps with
  | nil => exact ⟨[], [], rfl, nofun, nofun, rfl⟩
  | cons p rest ih =>
    obtain ⟨plain, marked, rfl, optional, required, docs⟩ := ih
    rw [parameterDocs, docs]
    rcases List.eq_nil_or_concat plain with rfl | ⟨others, last, rfl⟩
    case inl =>
      have ended : ([] ++ marked).any (!·.isOptional) = false := by simpa using optional
      rw [ended, Bool.and_false, if_neg nofun]
      cases head : p.isOptional with
      | true => exact ⟨[], p :: marked, rfl, List.forall_mem_cons.2 ⟨head, optional⟩, nofun, rfl⟩
      | false =>
        refine ⟨[p], marked, rfl, optional, by simpa using head, ?_⟩
        rw [List.map_singleton, MethodParameter.plainDoc, head]
        rfl
    case inr =>
      have lastRequired : last.isOptional = false := required last (by simp)
      have follows : (others.concat last ++ marked).any (!·.isOptional) = true := by
        simp [lastRequired]
      have ends : (p :: others.concat last).getLast? = some last := by
        rw [List.concat_eq_append, ← List.cons_append, List.getLast?_concat]
      refine ⟨p :: others.concat last, marked, rfl, optional, ?_, ?_⟩
      · simpa only [ends, Option.mem_some_iff, forall_eq'] using lastRequired
      · rw [follows, Bool.and_true, List.map_cons, MethodParameter.plainDoc]
        cases p.isOptional <;> rfl

theorem adds_of_mem_parameterDocs {ps : List MethodParameter} : ∀ d ∈ parameterDocs ps, Adds d := by
  obtain ⟨plain, marked, -, docs⟩ := exists_splits ps
  rw [docs]
  exact List.forall_mem_append.2 ⟨List.forall_mem_map.2 fun p _ => p.adds_plainDoc,
    List.forall_mem_map.2 fun p _ => p.adds_markedDoc⟩

/-! ### The list of parameters -/

/-- The text of a list in parentheses, on one line or with one item a line. -/
def listText (mode : Mode) (texts : List String) : String :=
  match mode with
  | .flat => "(" ++ ", ".intercalate texts ++ ")"
  | .broken => "(\n  " ++ ",\n  ".intercalate texts ++ ",\n)"

theorem exists_place_group (width : Int) (rest : List Frame) (indent : Int) (mode : Mode) (d : Doc)
    (p : Page) : ∃ inside,
      place width rest indent mode (.group d) p = place width rest indent inside d p := by
  cases mode with
  | flat => exact ⟨.flat, rfl⟩
  | broken => exact ⟨_, rfl⟩

/-- A list in parentheses adds the texts of its items, on one line or with one item a line. -/
theorem exists_place_parentheses {items : List Doc} (h : ∀ d ∈ items, Adds d) (width : Int)
    (rest : List Frame) (mode : Mode) (p : Page) :
    ∃ inside texts, List.Forall₂ (LaidOut width) items texts ∧
      (place width rest 0 mode (bracketed "(" ")" Doc.softNothing items) p).chars =
        p.chars ++ (listText inside texts).toList := by
  obtain ⟨inside, laid⟩ := exists_place_group width rest 0 mode (.text "("
    ++ .nest TypeExpr.indentWidth (Doc.softNothing
      ++ Doc.intersperse (.text "," ++ Doc.softSpace) items ++ .ifBroken (.text ",") .nil)
    ++ Doc.softNothing ++ .text ")") p
  let behind : List Frame := ⟨2, inside, .ifBroken (.text ",") .nil⟩ ::
    ⟨0, inside, Doc.softNothing⟩ :: ⟨0, inside, .text ")"⟩ :: rest
  let filled (q : Page) : Page :=
    place width behind 2 inside (Doc.intersperse (.text "," ++ Doc.softSpace) items) q
  rw [bracketed, laid]
  cases inside with
  | flat =>
    let opened : Page := (p.write "(").write ""
    obtain ⟨texts, all, chars⟩ := exists_place_items h width behind 2 .flat opened
    have closed : (((filled opened).write "").write ")").chars =
        p.chars ++ (listText .flat texts).toList := by
      rw [Page.chars_write, Page.chars_write, chars, Page.chars_write, Page.chars_write]
      simp [separation, listText]
    exact ⟨.flat, texts, all, closed⟩
  | broken =>
    let opened : Page := (p.write "(").endLine 2
    obtain ⟨texts, all, chars⟩ := exists_place_items h width behind 2 .broken opened
    have closed : ((((filled opened).write ",").endLine 0).write ")").chars =
        p.chars ++ (listText .broken texts).toList := by
      rw [Page.chars_write, Page.chars_endLine_write (by decide), chars,
        Page.chars_endLine_write (by decide)]
      simp [separation, listText, Text.spaces]
    exact ⟨.broken, texts, all, closed⟩

/-- The texts of parameters are those of the plain ones and those of the marked ones. -/
theorem exists_texts_of_splits {ps plain marked : List MethodParameter} {texts : List String}
    (docs : parameterDocs ps = plain.map (·.plainDoc) ++ marked.map (·.markedDoc))
    (all : List.Forall₂ (LaidOut width) (parameterDocs ps) texts) :
    ∃ plainTexts markedTexts, texts = plainTexts ++ markedTexts ∧
      List.Forall₂ (MethodParameter.WritesPlain width) plain plainTexts ∧
      List.Forall₂ (MethodParameter.WritesMarked width) marked markedTexts := by
  have count : (plain.map (·.plainDoc)).length = plain.length := List.length_map _
  have first := List.forall₂_take plain.length all
  have second := List.forall₂_drop plain.length all
  rw [docs, List.take_left' count, List.forall₂_map_left_iff] at first
  rw [docs, List.drop_left' count, List.forall₂_map_left_iff] at second
  exact ⟨texts.take plain.length, texts.drop plain.length, (List.take_append_drop _ _).symm,
    first.imp fun _ _ => MethodParameter.writesPlain_of_laidOut,
    second.imp fun _ _ => MethodParameter.writesMarked_of_laidOut⟩

/-! ### Signatures -/

namespace Signature

/-- The text of a signature in front of its parameters. -/
def headText (s : Signature) : String :=
  modifiersText (visibilityWords s.visibility ++ (if s.isStatic then ["static"] else [])
    ++ if s.isAsync then ["async"] else []) ++ s.name

/-- The layout of the parameters of a signature. -/
def listDoc (s : Signature) : Doc :=
  if s.parameters.isEmpty then .text "()"
  else bracketed "(" ")" Doc.softNothing (parameterDocs s.parameters)

/-- The layout of what follows the parameters of a signature. -/
def resultDoc (s : Signature) : Doc :=
  match s.result with
  | some t => .text ": " ++ t.doc
  | none => .text ""

theorem doc_eq (s : Signature) : s.doc = .text s.headText ++ s.listDoc ++ s.resultDoc := rfl

/-- Whether a text is what follows the parameters of a signature. -/
def WritesResult (width : Int) (s : Signature) (w : String) : Prop :=
  match s.result with
  | some t => ∃ u, t.IsText width u ∧ w = ": " ++ u
  | none => w = ""

theorem exists_place_listDoc (s : Signature) (width : Int) (rest : List Frame) (mode : Mode)
    (p : Page) : ∃ inside texts, List.Forall₂ (LaidOut width) (parameterDocs s.parameters) texts ∧
      (place width rest 0 mode s.listDoc p).chars = p.chars ++ (listText inside texts).toList := by
  rw [listDoc]
  split
  · next empty =>
    rw [List.isEmpty_iff.1 empty]
    exact ⟨.flat, [], .nil, p.chars_write "()"⟩
  · exact exists_place_parentheses adds_of_mem_parameterDocs width rest mode p

theorem exists_place_resultDoc (s : Signature) (width : Int) (rest : List Frame) (indent : Int)
    (mode : Mode) (p : Page) : ∃ result, s.WritesResult width result ∧
      (place width rest indent mode s.resultDoc p).chars = p.chars ++ result.toList := by
  rw [resultDoc]
  unfold WritesResult
  split
  · next t _ =>
    obtain ⟨w, laid, chars⟩ :=
      ((adds_text ": ").append t.adds_doc).exists_laidOut width rest indent mode p
    exact ⟨w, MethodParameter.exists_text_of_laidOut laid, chars⟩
  · exact ⟨"", rfl, p.chars_write ""⟩

/-- **The parameters of a signature** are written in order, on the line of the name or with one a
line. Those of the longest suffix of optional ones are marked. Every other one is written without a
mark, and if it is optional, its type is the union of the declared type and `undefined`. -/
theorem text_parameters (s : Signature) (width : Int) :
    ∃ plain marked, Splits s.parameters plain marked ∧
      (∀ p ∈ plain, p.isOptional = true → ∀ t, t ∈ p.requiredType.unionMembers ↔
        t ∈ p.type.unionMembers ∨ t = .undefined) ∧
      ∃ mode plainTexts markedTexts result,
        List.Forall₂ (MethodParameter.WritesPlain width) plain plainTexts ∧
        List.Forall₂ (MethodParameter.WritesMarked width) marked markedTexts ∧
        s.WritesResult width result ∧
        s.text width = s.headText ++ listText mode (plainTexts ++ markedTexts) ++ result := by
  obtain ⟨plain, marked, split, docs⟩ := exists_splits s.parameters
  refine ⟨plain, marked, split, ?union, ?texts⟩
  case union => exact fun p _ optional t => MethodParameter.mem_requiredType optional
  let headed : Page := Page.write ⟨[], 0⟩ s.headText
  let filled : Page := place width [⟨0, .broken, s.resultDoc⟩] 0 .broken s.listDoc headed
  obtain ⟨mode, texts, all, listed⟩ :=
    s.exists_place_listDoc width [⟨0, .broken, s.resultDoc⟩] .broken headed
  obtain ⟨result, written, ended⟩ := s.exists_place_resultDoc width [] 0 .broken filled
  obtain ⟨plainTexts, markedTexts, rfl, plains, markeds⟩ := exists_texts_of_splits docs all
  refine ⟨mode, plainTexts, markedTexts, result, plains, markeds, written, ?_⟩
  have laid : (s.text width).toList = (place width [] 0 .broken s.resultDoc filled).chars := by
    rw [text, doc_eq]
    rfl
  have head : headed.chars = s.headText.toList := Page.chars_write ⟨[], 0⟩ s.headText
  rw [← String.toList_inj, laid, ended, listed, head, String.toList_append, String.toList_append]

/-- A required parameter follows the optional one. -/
example : text { name := "m", parameters := [{ name := "a", type := .string, isOptional := true },
      { name := "b", type := .number }], result := some .void } 80 =
    "m(a: string | undefined, b: number): void" := by decide +kernel

end Signature

end ClientGen
