import ClientGen.Proofs.Client.Extraction
import ClientGen.Proofs.Client.MethodNames
import ClientGen.Proofs.Document.Operations
import ClientGen.Proofs.Name.FileName

/-!
# Distinct names of methods

Every operation of a class takes two names, its own and that of its raw method. A name that is used
stands in the way of one number at most (`numbered_ne_raw`), so the search for a number ends
(`getsName_distinctMethodName`). The invariant of a class is that all names given so far are among
those used (`nodup_givenNames`): then no two of its methods have one name, in whatever order
operations ask for names that end in a number or are raw variants of others.

**The names of a class** (`classFor_names`): an operation keeps the name that it asks for exactly if
no earlier one took that name or its raw variant. Any other gets the first number with which both are
free, and one warning.
-/

namespace ClientGen.Client

open Report (Tells tells_pure tells_ofText tells_ofOption bind_result_eq_ok_iff)
open Schema (Lowering Note Scope)

/-! ### The search for a number -/

/-- How an operation gets its name where names are used: the one that it wants if that and its raw
variant are free, and else with the first number that makes them so. -/
structure GetsName (used : List String) (wanted given : String) : Prop where
  kept : given = wanted ↔ wanted ∉ used ∧ wanted ++ "Raw" ∉ used
  numbered : given ≠ wanted → ∃ k ≥ 2, given = wanted ++ toString k ∧
    (∀ j, 2 ≤ j → j < k → wanted ++ toString j ∈ used ∨ wanted ++ toString j ++ "Raw" ∈ used)
  free : given ∉ used ∧ given ++ "Raw" ∉ used

/-- Only which names are used matters. -/
theorem GetsName.congr {used used' : List String} {wanted given : String}
    (h : GetsName used wanted given) (same : ∀ name, name ∈ used ↔ name ∈ used') :
    GetsName used' wanted given := by
  obtain ⟨kept, numbered, free⟩ := h
  simp only [same] at kept numbered free
  exact ⟨kept, numbered, free⟩

/-- No name with a number is the raw variant of one. -/
theorem numbered_ne_raw (base : String) (m n : Nat) :
    base ++ toString m ≠ base ++ toString n ++ "Raw" := by
  intro same
  have ends := congrArg Name.endsInDigit same
  rw [Name.endsInDigit_numbered] at ends
  simp [Name.endsInDigit] at ends

/-- The number that is found makes a name and its raw variant free. -/
theorem isFreeMethodName_firstNumbered (used : List String) (base : String) :
    isFreeMethodName used
      (Name.firstNumbered (isFreeMethodName used) base (2 * used.length) 2) = true := by
  refine (Name.firstNumbered_free (isFreeMethodName used) base (2 * used.length) 2).resolve_right
    fun none => ?_
  -- Each number that was tried is taken by a name that takes no other number.
  let taking (n : Nat) : String :=
    if base ++ toString n ∈ used then base ++ toString n else base ++ toString n ++ "Raw"
  have taken : (List.range' 2 (2 * used.length + 1)).map taking ⊆ used := by
    intro name mem
    obtain ⟨n, range, rfl⟩ := List.mem_map.1 mem
    rw [List.mem_range'_1] at range
    have busy := none n range.1 (by omega)
    rw [Bool.eq_false_iff, ne_eq, isFreeMethodName_iff, not_and_or, not_not, not_not] at busy
    change (if _ then _ else _) ∈ used
    split
    · next own => exact own
    · next other => exact busy.resolve_left other
  have injective : Function.Injective taking := by
    intro m n same
    change (if _ then _ else _) = (if _ then _ else _) at same
    split at same <;> split at same
    · exact Name.numbered_injective base same
    · exact absurd same (numbered_ne_raw base m n)
    · exact absurd same.symm (numbered_ne_raw base n m)
    · exact Name.numbered_injective base ((String.append_left_inj "Raw").1 same)
  have distinct := (List.nodup_range' (s := 2) (n := 2 * used.length + 1)).map injective
  have short := (distinct.subperm taken).length_le
  rw [List.length_map, List.length_range'] at short
  omega

/-- **The search for a name ends**, whatever names are used. -/
theorem getsName_distinctMethodName (used : List String) (wanted : String) :
    GetsName used wanted (distinctMethodName used wanted) := by
  by_cases free : isFreeMethodName used wanted = true
  · have same : distinctMethodName used wanted = wanted := if_pos free
    have unused := isFreeMethodName_iff.1 free
    rw [same]
    exact ⟨iff_of_true rfl unused, fun other => absurd rfl other, unused⟩
  · have found : distinctMethodName used wanted =
        Name.firstNumbered (isFreeMethodName used) wanted (2 * used.length) 2 := if_neg free
    have unused := isFreeMethodName_firstNumbered used wanted
    obtain ⟨k, -, number, tried⟩ :=
      Name.firstNumbered_tried (isFreeMethodName used) wanted (2 * used.length) 2
    rw [found]
    refine ⟨iff_of_false (fun same => free (same ▸ unused))
        (fun h => free (isFreeMethodName_iff.2 h)),
      fun _ => ⟨2 + k, Nat.le_add_right 2 k, number, fun j low high => ?_⟩,
      isFreeMethodName_iff.1 unused⟩
    obtain ⟨i, rfl⟩ := Nat.exists_eq_add_of_le low
    have busy := tried i (by omega)
    rwa [Bool.eq_false_iff, ne_eq, isFreeMethodName_iff, not_and_or, not_not, not_not] at busy

/-! ### Names one after the other -/

/-- The names that are given to those wanted, one after the other. `used` are names that were given
before, with their raw variants. -/
def methodNames (used : List String) : List String → List String
  | [] => []
  | wanted :: rest =>
    let name := distinctMethodName used wanted
    name :: methodNames (name :: (name ++ "Raw") :: used) rest

theorem length_methodNames (used wanted : List String) :
    (methodNames used wanted).length = wanted.length := by
  induction wanted generalizing used with
  | nil => rfl
  | cons name rest ih => rw [methodNames, List.length_cons, ih, List.length_cons]

theorem raw_ne (name : String) : name ++ "Raw" ≠ name := by
  intro same
  have lengths := congrArg String.length same
  have three : "Raw".length = 3 := rfl
  rw [String.length_append] at lengths
  omega

/-- The names of methods are distinct and none of those used. -/
theorem nodup_givenNames (used wanted : List String) :
    (givenNames (methodNames used wanted)).Nodup ∧
      ∀ name ∈ givenNames (methodNames used wanted), name ∉ used := by
  induction wanted generalizing used with
  | nil => exact ⟨.nil, List.forall_mem_nil _⟩
  | cons name rest ih =>
    let given := distinctMethodName used name
    obtain ⟨distinct, new⟩ := ih (given :: (given ++ "Raw") :: used)
    obtain ⟨free, freeRaw⟩ := (getsName_distinctMethodName used name).free
    have split : givenNames (methodNames used (name :: rest)) = given :: (given ++ "Raw") ::
        givenNames (methodNames (given :: (given ++ "Raw") :: used) rest) := rfl
    rw [split, List.nodup_cons, List.nodup_cons, List.forall_mem_cons, List.forall_mem_cons]
    refine ⟨⟨?_, fun mem => new _ mem (List.mem_cons_of_mem _ List.mem_cons_self), distinct⟩,
      free, freeRaw, fun other mem old => ?_⟩
    · rw [List.mem_cons, not_or]
      exact ⟨(raw_ne _).symm, fun mem => new _ mem List.mem_cons_self⟩
    · exact new other mem (List.mem_cons_of_mem _ (List.mem_cons_of_mem _ old))

/-- Each name is given where the ones before it are used. -/
theorem getsName_methodNames {used wanted : List String} {n : Nat} {name given : String}
    (here : wanted[n]? = some name) (here' : (methodNames used wanted)[n]? = some given) :
    GetsName (givenNames ((methodNames used wanted).take n) ++ used) name given := by
  induction wanted generalizing used n with
  | nil => cases here
  | cons first rest ih =>
    cases n with
    | zero =>
      obtain rfl := Option.some.inj here
      obtain rfl := Option.some.inj here'
      exact getsName_distinctMethodName used first
    | succ n =>
      refine (ih here here').congr fun other => ?_
      simp only [methodNames, List.take_succ_cons, givenNames, List.flatMap_cons, List.mem_append,
        List.mem_cons, List.not_mem_nil, or_false]
      tauto

/-! ### Names that operations want -/

/-- An operation asks for a name if its identifier is text or counts as absent. -/
theorem methodName?_eq_some_iff {operationId : Value} {method path name : String} :
    methodName? operationId method path = some name ↔
      ∃ identifier, (if operationId.truthy then operationId.str? else some "") = some identifier ∧
        Name.guardDigit (if (Name.camel identifier).isEmpty then nameFromPath method path
          else Name.camel identifier) = name := by
  unfold methodName?
  dsimp only
  split <;> simp only [Option.bind_eq_bind, Option.bind_eq_some_iff, Option.pure_def,
    Option.some_inj]

/-- A name with a letter or digit has a word. -/
theorem camel_ne_empty {s : String} {c : Char} (mem : c ∈ s.toList)
    (letter : c.isAlphanum = true) : Name.camel s ≠ "" := by
  intro none
  have parts : (Name.camelParts (Name.words s.toList)).flatten = [] := by
    rw [← Name.toList_camel, none]
    rfl
  have noWords : Name.words s.toList = [] := by
    cases split : Name.words s.toList with
    | nil => rfl
    | cons first rest =>
      rw [split, Name.camelParts, List.flatten_cons, List.append_eq_nil_iff] at parts
      have filled := (Name.areWords_words s.toList).filled first (split ▸ List.mem_cons_self)
      exact absurd parts.1 filled
  have letters := Name.flatten_words s.toList
  rw [noWords, List.flatten_nil, eq_comm, List.map_eq_nil_iff, List.filter_eq_nil_iff] at letters
  exact letters c mem letter

/-- A name that is made of a path is in camel case, and its first word is the verb. -/
theorem exists_nameFromPath (method path : String) :
    ∃ more, nameFromPath method path = Name.camel (Text.lower method ++ more) := by
  rw [nameFromPath]
  exact ⟨_, rfl⟩

theorem nameFromPath_ne_empty {method : String} (verb : method ∈ Document.verbs.map Text.upper)
    (path : String) : nameFromPath method path ≠ "" := by
  have begins : ∀ method ∈ Document.verbs.map Text.upper,
      (Text.lower method).toList.any (·.isAlphanum) = true := by
    decide +kernel
  obtain ⟨c, mem, letter⟩ := List.any_eq_true.1 (begins method verb)
  obtain ⟨more, made⟩ := exists_nameFromPath method path
  rw [made]
  refine camel_ne_empty ?_ letter
  rw [String.toList_append]
  exact List.mem_append_left _ mem

/-- The name that an operation with one of the verbs asks for is a plain identifier. -/
theorem isPlainIdentifier_of_asked {o : Operation} {name : String}
    (asked : methodName? o.operationId o.method o.path = some name)
    (verb : o.method ∈ Document.verbs.map Text.upper) : Name.IsPlainIdentifier name := by
  obtain ⟨identifier, -, rfl⟩ := methodName?_eq_some_iff.1 asked
  split
  · have nonempty : (nameFromPath o.method o.path).isEmpty = false := by
      rw [Bool.eq_false_iff, ne_eq, String.isEmpty_iff]
      exact nameFromPath_ne_empty verb o.path
    obtain ⟨more, made⟩ := exists_nameFromPath o.method o.path
    rw [made] at nonempty ⊢
    exact Name.isPlainIdentifier_guardDigit nonempty (Name.isAlphanum_camel _)
  · next some =>
    exact Name.isPlainIdentifier_guardDigit (Bool.eq_false_iff.2 some) (Name.isAlphanum_camel _)

theorem GetsName.isPlainIdentifier {used : List String} {wanted given : String}
    (h : GetsName used wanted given) (plain : Name.IsPlainIdentifier wanted) :
    Name.IsPlainIdentifier given ∧ Name.IsPlainIdentifier (given ++ "Raw") := by
  have named : Name.IsPlainIdentifier given := by
    by_cases same : given = wanted
    · rwa [same]
    · obtain ⟨k, -, number, -⟩ := h.numbered same
      rw [number]
      exact plain.numbered k
  have letters : ∀ c ∈ "Raw".toList, c.isAlphanum = true := List.all_eq_true.1 (by decide)
  exact ⟨named, named.append fun c mem => .inl (letters c mem)⟩

/-! ### Warnings of a class -/

/-- The channel of the classes. -/
def classChannel : String := "oas_generator.typescript.api_class_builder"

theorem lower_tells (scope : Scope) (v : Value) :
    Tells (Schema.IsOff classChannel) (Schema.lower scope v) :=
  (Schema.lowerWithin_tells scope _ v).mono fun _ => Schema.IsAboutSchema.isOff (by decide)

theorem readWith_tells {typed : Value → Lowering TypeExpr}
    (quiet : ∀ v, Tells (Schema.IsOff classChannel) (typed v)) (o : Operation)
    (placeholders : List String) (p : Parameter) :
    Tells (Schema.IsOff classChannel) (Extractor.readWith typed o placeholders p) := by
  have type : Tells (Schema.IsOff classChannel) (Extractor.typeWith typed p) := by
    unfold Extractor.typeWith
    split
    · exact tells_pure _
    · exact quiet _
  have default : Tells (Schema.IsOff classChannel) (defaultOf p.schema) := by
    unfold defaultOf
    split
    · exact tells_pure _
    · exact (tells_ofOption _).bind_pure _
  have dropped : Tells (Schema.IsOff classChannel) (Extractor.drop o p) := by
    refine (tells_ofText _).bind fun text n mem => ?_
    rw [List.mem_singleton.1 mem]
    rintro _ ⟨⟩
    exact (by decide : Extractor.channel ≠ classChannel)
  refine type.bind fun _ => default.bind fun _ => ?_
  split
  · exact dropped.bind_pure _
  · exact tells_pure _

theorem inputsOf_tells (scope : Scope) (o : Operation) :
    Tells (Schema.IsOff classChannel) (inputsOf scope o) := by
  have steps := Extractor.extract_eq scope o []
  rw [Extractor.runs_extract] at steps
  rw [← (Prod.mk.inj steps).1]
  refine (Schema.eachOf_tells (readWith_tells (fun v => ?_) o _) _).bind fun read => ?_
  · exact (Schema.lowerWithin_tells scope _ v).mono fun _ =>
      Schema.IsAboutSchema.isOff (by decide)
  · refine Tells.bind_pure ?_ _
    refine (Extractor.bodyWith_tells (fun v => Schema.lowerWithin_tells scope _ v) _).mono
      fun _ => Schema.IsAboutSchema.isOff (by decide)

theorem responseOf_tells (scope : Scope) (o : Operation) :
    Tells (Schema.IsOff classChannel) (responseOf scope o) := by
  unfold responseOf
  split
  · exact tells_pure _
  · split
    · exact tells_pure _
    · exact tells_pure _
    · exact tells_pure _
    · exact (lower_tells scope _).bind_pure _

theorem documentationOf_tells (p : MethodPlan) :
    Tells (Schema.IsOff classChannel) (documentationOf p) := by
  have line (v : Value) : Tells (Schema.IsOff classChannel) (documentationLine v) := by
    unfold documentationLine
    split
    · exact tells_pure _
    · split
      · exact tells_pure _
      · exact Report.tells_of_notes_eq_nil rfl
    · split
      · exact Report.tells_of_notes_eq_nil rfl
      · exact tells_pure _
  exact (line _).bind fun _ => (line _).bind_pure _

theorem planMethod_tells (scope : Scope) (width : Int) (security : List Value) (name : String)
    (o : Operation) :
    Tells (Schema.IsOff classChannel) (planMethod scope width security name o) :=
  (inputsOf_tells scope o).bind fun _ => (responseOf_tells scope o).bind_pure _

/-- The warnings for names that are not given as they are wanted. -/
def renamings (owner : String) (wanted given : List String) : List Warning :=
  (wanted.zip given).filterMap fun p =>
    if p.2 = p.1 then none else some (.renamedMethod p.1 owner p.2)

/-- Gives a warning for a name that is not the one that was wanted. -/
def notice (owner wanted given : String) : Lowering Unit :=
  if given ≠ wanted then Schema.warn (.renamedMethod wanted owner given) else pure ()

theorem warningsOn_notice (owner wanted given : String) :
    Schema.warningsOn classChannel (notice owner wanted given) =
      renamings owner [wanted] [given] := by
  rw [notice, renamings, List.zip_cons_cons, List.zip_nil_left, List.filterMap_cons]
  by_cases same : given = wanted
  · simp [same]
  · simp only [ne_eq, same, not_false_eq_true, if_true, if_false]
    rfl

section Classes

variable {scope : Scope} {width : Int} {security : List Value}

/-- The methods for a first operation, whose name is given with a warning if it is not the one that
was wanted. -/
theorem methodsAfter_eq {owner : String} {used : List String} {o : Operation}
    {operations : List Operation} {wanted : String}
    (asked : methodName? o.operationId o.method o.path = some wanted) :
    methodsAfter scope width security owner used (o :: operations) = (do
      let given := distinctMethodName used wanted
      notice owner wanted given
      let plan ← planMethod scope width security given o
      let documentation ← documentationOf plan
      let others ← methodsAfter scope width security owner (given :: (given ++ "Raw") :: used)
        operations
      return (plan, methodPair plan documentation) :: others) := by
  have found : (Report.ofOption (methodName? o.operationId o.method o.path) : Lowering String) =
      pure wanted := by
    rw [asked]
    rfl
  rw [methodsAfter, found, pure_bind]
  unfold notice
  dsimp only
  split
  · rfl
  · rfl

/-- Methods for operations have the names that are given to those wanted, with one warning for each
other one. -/
theorem methodsAfter_names {owner : String} {used : List String} {operations : List Operation}
    {wanted : List String} {ms : List (MethodPlan × List Method)}
    (asked : List.Forall₂ (fun o name => methodName? o.operationId o.method o.path = some name)
      operations wanted)
    (ended : (methodsAfter scope width security owner used operations).result = .ok ms) :
    (ms.flatMap (·.2)).map (·.signature.name) =
        (methodNames used wanted).flatMap (fun name => [name ++ "Raw", name]) ∧
      Schema.warningsOn classChannel (methodsAfter scope width security owner used operations) =
        renamings owner wanted (methodNames used wanted) := by
  induction asked generalizing used ms with
  | nil =>
    cases ended
    exact ⟨rfl, rfl⟩
  | @cons o name operations wanted first _ ih =>
    rw [methodsAfter_eq first] at ended ⊢
    obtain ⟨⟨⟩, warned, ended⟩ := bind_result_eq_ok_iff.1 ended
    obtain ⟨plan, planned, ended⟩ := bind_result_eq_ok_iff.1 ended
    obtain ⟨documentation, documented, ended⟩ := bind_result_eq_ok_iff.1 ended
    obtain ⟨others, later, ended⟩ := bind_result_eq_ok_iff.1 ended
    obtain rfl := Except.ok.inj ended
    obtain ⟨names, warnings⟩ := ih later
    constructor
    · have given := (planMethod_plans scope width security _ o plan planned).methodName
      rw [List.flatMap_cons, List.map_append, names, methodPair, methodNames, List.flatMap_cons]
      simp only [List.map_cons, List.map_nil, given, Request.rawName]
    · dsimp only
      rw [Schema.warningsOn_bind warned, Schema.warningsOn_bind planned,
        Schema.warningsOn_bind documented, Schema.warningsOn_bind later, warningsOn_notice,
        Schema.warningsOn_of_tells (planMethod_tells _ _ _ _ _),
        Schema.warningsOn_of_tells (documentationOf_tells plan), warnings,
        Schema.warningsOn_pure, List.append_nil, List.nil_append, List.nil_append]
      exact (List.filterMap_append ..).symm

end Classes

/-! ### The names of a class -/

/-- How operations get the names that they want, one after the other. -/
structure AssignsNames (operations : List Operation) (wanted given : List String) : Prop where
  length : given.length = operations.length
  gets : ∀ (n : Nat) (name own : String), wanted[n]? = some name → given[n]? = some own →
    GetsName (givenNames (given.take n)) name own
  distinct : (givenNames given).Nodup
  plain : ∀ (n : Nat) (o : Operation) (own : String), operations[n]? = some o →
    given[n]? = some own → o.method ∈ Document.verbs.map Text.upper →
    Name.IsPlainIdentifier own ∧ Name.IsPlainIdentifier (own ++ "Raw")

theorem assignsNames_methodNames {operations : List Operation} {wanted : List String}
    (asked : List.Forall₂ (fun o name => methodName? o.operationId o.method o.path = some name)
      operations wanted) :
    AssignsNames operations wanted (methodNames [] wanted) where
  length := (length_methodNames [] wanted).trans asked.length_eq.symm
  gets n name own here here' := by
    have gets := getsName_methodNames here here'
    rwa [List.append_nil] at gets
  distinct := (nodup_givenNames [] wanted).1
  plain n o own here here' verb := by
    obtain ⟨name, found, derived⟩ : ∃ name, wanted[n]? = some name ∧
        methodName? o.operationId o.method o.path = some name := by
      obtain ⟨bound, rfl⟩ := List.getElem?_eq_some_iff.1 here
      exact ⟨_, List.getElem?_eq_getElem (asked.length_eq ▸ bound), asked.get bound _⟩
    exact (getsName_methodNames found here').isPlainIdentifier
      (isPlainIdentifier_of_asked derived verb)

/-- **The names of a class.** Operations of any order that ask for names get names that, with their
raw variants, are all distinct, and that are plain identifiers where the operations have verbs, as
those of every document have. An operation keeps the name that it asks for exactly if no earlier
operation took it or its raw variant, and else it gets the first number with which neither is taken:
there always is one. The methods of a class are called like this, and for each operation that does
not keep its name, and for no other, the class is given with one warning. -/
theorem classFor_names {operations : List Operation} {wanted : List String}
    (asked : List.Forall₂ (fun o name => methodName? o.operationId o.method o.path = some name)
      operations wanted) :
    AssignsNames operations wanted (methodNames [] wanted) ∧
    (∀ (source : Shared) (d : Document), (Document.ofShared source).result = .ok d →
      ∀ o ∈ d.operations, o.method ∈ Document.verbs.map Text.upper) ∧
    ∀ (scope : Scope) (width : Int) (security : List Value) (modules : List (String × String))
      (tag : String) (c : Class),
      (classFor scope width security modules tag operations).result = .ok c →
      c.methods.map (·.signature.name) =
        "constructor" :: (methodNames [] wanted).flatMap (fun name => [name ++ "Raw", name]) ∧
      Schema.warningsOn classChannel (classFor scope width security modules tag operations) =
        renamings (className tag) wanted (methodNames [] wanted) := by
  refine ⟨assignsNames_methodNames asked,
    fun source d ended => (Document.operations_differ source ended).2,
    fun scope width security modules tag c ended => ?_⟩
  obtain ⟨ms, planned, ended⟩ := bind_result_eq_ok_iff.1 ended
  obtain rfl := Except.ok.inj ended
  obtain ⟨names, warnings⟩ := methodsAfter_names asked planned
  refine ⟨congrArg _ names, ?_⟩
  rw [classFor, Schema.warningsOn_bind planned, warnings, Schema.warningsOn_pure, List.append_nil]

/-- Operations that ask for names which are raw variants of others, or end in a number. -/
def finding : List Operation := ["find", "findRaw", "find", "find2"].map fun name =>
  { deletion with operationId := .str name }

theorem classFor_names_of_finding :
    AssignsNames finding ["find", "findRaw", "find", "find2"]
      ["find", "findRaw2", "find2", "find22"] ∧
    ∃ c, (classFor ⟨[], 64⟩ 80 [] [] "pets" finding).result = .ok c ∧
      c.methods.map (·.signature.name) = ["constructor", "findRaw", "find", "findRaw2Raw",
        "findRaw2", "find2Raw", "find2", "find22Raw", "find22"] ∧
      Schema.warningsOn classChannel (classFor ⟨[], 64⟩ 80 [] [] "pets" finding) =
        [.renamedMethod "findRaw" "PetsApi" "findRaw2", .renamedMethod "find" "PetsApi" "find2",
          .renamedMethod "find2" "PetsApi" "find22"] := by
  have asked : List.Forall₂
      (fun o name => methodName? o.operationId o.method o.path = some name) finding
      ["find", "findRaw", "find", "find2"] := by decide +kernel
  have names : methodNames [] ["find", "findRaw", "find", "find2"] =
      ["find", "findRaw2", "find2", "find22"] := by decide +kernel
  have succeeds : (classFor ⟨[], 64⟩ 80 [] [] "pets" finding).result.isOk := by decide +kernel
  obtain ⟨c, ended⟩ := exists_eq_ok succeeds
  obtain ⟨assigned, -, built⟩ := classFor_names asked
  obtain ⟨methods, warnings⟩ := built ⟨[], 64⟩ 80 [] [] "pets" c ended
  rw [names] at assigned methods warnings
  exact ⟨assigned, c, ended, methods, warnings.trans (by decide +kernel)⟩

end ClientGen.Client
