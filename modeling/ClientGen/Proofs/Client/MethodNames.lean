import ClientGen.Proofs.Client.Methods
import ClientGen.Proofs.Name.Distinct

/-!
# Names of methods

The operations of a class get their names one after the other (`Named`): each one the name that it
asks for, or that name with a number if it, or its raw variant, is given already. So a name that ends
in no digit is given to an operation exactly if the operation asks for it and earlier ones leave it
free (`Named.eq_iff`). The methods of a class are named like this (`classFor_named`).
-/

namespace ClientGen.Client

open Report (bind_result_eq_ok_iff)
open Schema (Scope)

/-! ## Free names -/

/-- The names of the methods for operations of the given names. -/
def givenNames (names : List String) : List String :=
  names.flatMap fun name => [name, name ++ "Raw"]

theorem isFreeMethodName_iff {used : List String} {name : String} :
    isFreeMethodName used name = true ↔ name ∉ used ∧ name ++ "Raw" ∉ used := by
  simp [isFreeMethodName]

theorem isFreeMethodName_perm {used used' : List String} (h : used.Perm used') (name : String) :
    isFreeMethodName used name = isFreeMethodName used' name := by
  rw [Bool.eq_iff_iff, isFreeMethodName_iff, isFreeMethodName_iff, h.mem_iff, h.mem_iff]

/-- A name that is no raw variant is free exactly if no operation has it or its raw variant. -/
theorem isFreeMethodName_givenNames_iff {names : List String} {name : String}
    (plain : ∀ other : String, other ++ "Raw" ≠ name) :
    isFreeMethodName (givenNames names) name = true ↔
      ∀ given ∈ names, given ≠ name ∧ given ≠ name ++ "Raw" := by
  simp only [isFreeMethodName_iff, givenNames, List.mem_flatMap, List.mem_cons, List.not_mem_nil,
    or_false, not_exists, not_and, not_or, ← forall_and]
  refine forall₂_congr fun given mem => ?_
  constructor
  · rintro ⟨⟨other, -⟩, other', -⟩
    exact ⟨Ne.symm other, Ne.symm other'⟩
  · rintro ⟨other, other'⟩
    refine ⟨⟨Ne.symm other, Ne.symm (plain given)⟩, Ne.symm other', fun same => other ?_⟩
    exact (String.append_left_inj "Raw").1 same.symm

/-- A name that ends in no digit is given only where it is asked for and free. -/
theorem distinctMethodName_eq_iff {name : String} (noDigit : Name.endsInDigit name = false)
    (used : List String) (wanted : String) :
    distinctMethodName used wanted = name ↔
      wanted = name ∧ isFreeMethodName used name = true := by
  rw [distinctMethodName]
  split
  · next free => exact ⟨fun same => ⟨same, same ▸ free⟩, fun h => h.1⟩
  · next taken =>
    refine iff_of_false (Name.firstNumbered_ne noDigit _ _ _ _) ?_
    rintro ⟨rfl, free⟩
    exact taken free

/-! ## Names given one after the other -/

/-- Names that operations get one after the other. `used` are the names given before. -/
inductive Named : (used : List String) → List Operation → List String → Prop
  | nil {used : List String} : Named used [] []
  | cons {used : List String} {o : Operation} {wanted : String} {operations : List Operation}
      {names : List String} (asked : methodName? o.operationId o.method o.path = some wanted)
      (rest : Named (distinctMethodName used wanted :: (distinctMethodName used wanted ++ "Raw")
        :: used) operations names) :
      Named used (o :: operations) (distinctMethodName used wanted :: names)

theorem Named.length_eq {used : List String} {operations : List Operation} {names : List String}
    (h : Named used operations names) : names.length = operations.length := by
  induction h with
  | nil => rfl
  | cons _ _ ih => rw [List.length_cons, List.length_cons, ih]

/-- **A name that ends in no digit is given to an operation exactly if the operation asks for it**,
and neither it nor its raw variant was given before. -/
theorem Named.eq_iff {used : List String} {operations : List Operation} {names : List String}
    (h : Named used operations names) {n : Nat} {o : Operation} {given : String}
    (here : operations[n]? = some o) (here' : names[n]? = some given) {name : String}
    (noDigit : Name.endsInDigit name = false) :
    given = name ↔ methodName? o.operationId o.method o.path = some name ∧
      isFreeMethodName (givenNames (names.take n) ++ used) name = true := by
  induction h generalizing n with
  | nil => cases here
  | @cons used first wanted operations names asked rest ih =>
    cases n with
    | zero =>
      obtain rfl := Option.some.inj here
      obtain rfl := Option.some.inj here'
      rw [asked, Option.some_inj]
      exact distinctMethodName_eq_iff noDigit used wanted
    | succ n =>
      rw [ih here here']
      refine and_congr_right fun _ => Bool.eq_iff_iff.1 (isFreeMethodName_perm ?_ name)
      -- the two names of the first operation are given before the others
      have moved : (givenNames (names.take n) ++ givenNames [distinctMethodName used wanted]).Perm
          (givenNames [distinctMethodName used wanted] ++ givenNames (names.take n)) :=
        List.perm_append_comm
      simpa [givenNames] using moved.append_right used

theorem methodsAfter_named {scope : Scope} {width : Int} {security : List Value} {owner : String}
    {used : List String} {operations : List Operation} {ms : List (MethodPlan × List Method)}
    (ended : (methodsAfter scope width security owner used operations).result = .ok ms) :
    Named used operations (ms.map (·.1.request.methodName)) := by
  induction operations generalizing used ms with
  | nil =>
    cases ended
    exact .nil
  | cons o _ ih =>
    obtain ⟨wanted, plan, documentation, others, asked, planned, rest, rfl⟩ :=
      methodsAfter_cons ended
    rw [List.map_cons, planned.methodName]
    exact .cons asked (ih rest)

/-! ## Methods of a class -/

/-- Methods that are made from plans, as pairs of a raw method and the one that calls it. -/
theorem exists_namedPairs {ms : List (MethodPlan × List Method)}
    (all : ∀ m ∈ ms, ∃ documentation, m.2 = methodPair m.1 documentation) :
    ∃ pairs : List (Method × Method),
      ms.flatMap (·.2) = pairs.flatMap (fun p : Method × Method => [p.1, p.2]) ∧
      pairs.map (·.2.signature.name) = ms.map (·.1.request.methodName) ∧
      ∀ p ∈ pairs, p.1.signature.name = p.2.signature.name ++ "Raw" := by
  induction ms with
  | nil => exact ⟨[], rfl, rfl, List.forall_mem_nil _⟩
  | cons m rest ih =>
    obtain ⟨⟨documentation, pair⟩, others⟩ := List.forall_mem_cons.1 all
    obtain ⟨pairs, same, names, raw⟩ := ih others
    refine ⟨(rawMethod m.1 documentation, convenienceMethod m.1 documentation) :: pairs, ?_, ?_, ?_⟩
    · rw [List.flatMap_cons, List.flatMap_cons, pair, methodPair_eq, same]
    · rw [List.map_cons, List.map_cons, names, convenienceMethod]
    · refine List.forall_mem_cons.2 ⟨?_, raw⟩
      rw [rawMethod, convenienceMethod, Request.rawName]

/-- A class has, behind its constructor, a raw method and one that calls it for each operation, which
get their names one after the other. -/
theorem classFor_named {scope : Scope} {width : Int} {security : List Value}
    {modules : List (String × String)} {tag : String} {operations : List Operation} {c : Class}
    (ended : (classFor scope width security modules tag operations).result = .ok c) :
    ∃ pairs : List (Method × Method),
      c.methods = constructorMethod :: pairs.flatMap (fun p : Method × Method => [p.1, p.2]) ∧
      Named [] operations (pairs.map (·.2.signature.name)) ∧
      ∀ p ∈ pairs, p.1.signature.name = p.2.signature.name ++ "Raw" := by
  obtain ⟨ms, planned, ended⟩ := bind_result_eq_ok_iff.1 ended
  obtain rfl := Except.ok.inj ended
  have made : ∀ m ∈ ms, ∃ documentation, m.2 = methodPair m.1 documentation := by
    intro m mem
    obtain ⟨o, -, -, pair⟩ := exists_of_forall₂_right (methodsAfter_result planned) mem
    exact pair
  obtain ⟨pairs, same, names, raw⟩ := exists_namedPairs made
  exact ⟨pairs, congrArg _ same, names ▸ methodsAfter_named planned, raw⟩

end ClientGen.Client
