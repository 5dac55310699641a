import ClientGen.Package.RuntimeModule
import ClientGen.Proofs.Client.MethodNames

/-!
# Members that classes inherit

The members of the class that all clients extend are read off its lines (`members_of_baseApi`). A
raw method is called like none of them. Any other method is called like a member exactly if its
operation asks for that name first (`classFor_members`), which operations may do
(`methods_called_like_members`).
-/

namespace ClientGen.Package

open Client (Method classFor constructorMethod methodName?)
open Schema (Scope)

/-! ## Members of a class -/

/-- Words that may stand before the name of a member, in this order. -/
def modifiers : List String := ["private ", "protected ", "async "]

/-- What follows the words before the name of a member. -/
def afterModifiers (cs : List Char) : List Char :=
  modifiers.foldl (fun cs word => (Text.dropPrefix? word.toList cs).getD cs) cs

/-- The identifier that characters begin with, if they begin with one. -/
def leadingName (cs : List Char) : List String :=
  if cs.head?.any Name.isIdentifierStart then
    [String.ofList (cs.takeWhile Name.isIdentifierRest)]
  else []

/-- The members that a line in the body of a class begins. The parameter of a constructor is one if
a word says who may see it. -/
def membersIn (cs : List Char) : List String :=
  match Text.dropPrefix? "  ".toList cs with
  | none => []
  | some rest =>
    leadingName (afterModifiers rest) ++
      match Text.dropPrefix? "constructor(".toList rest with
      | none => []
      | some inner => if afterModifiers inner = inner then [] else leadingName (afterModifiers inner)

/-- The members that the lines of a class begin. -/
def membersOf (lines : List String) : List String := lines.flatMap fun line => membersIn line.toList

/-- The members of the class that all clients extend. -/
def baseMembers : List String := [
  "middleware", "constructor", "configuration", "withMiddleware", "withPreMiddleware",
  "withPostMiddleware", "request", "createFetchParams", "fetchApi", "clone"]

section Lines

variable {cs : List Char} {lines members : List String} (rest : membersOf lines = members)

include rest

/-- A line that begins no member, by its characters. -/
theorem membersOf_skip (h : membersIn cs = []) :
    membersOf (String.ofList cs :: lines) = members := by
  rw [membersOf, List.flatMap_cons, String.toList_ofList, h, List.nil_append]
  exact rest

theorem membersOf_take {name : String} (h : membersIn cs = [name]) :
    membersOf (String.ofList cs :: lines) = name :: members := by
  rw [membersOf, List.flatMap_cons, String.toList_ofList, h, List.singleton_append]
  exact congrArg _ rest

theorem membersOf_take_two {name other : String} (h : membersIn cs = [name, other]) :
    membersOf (String.ofList cs :: lines) = name :: other :: members := by
  rw [membersOf, List.flatMap_cons, String.toList_ofList, h, List.cons_append,
    List.singleton_append]
  exact congrArg _ (congrArg _ rest)

end Lines

set_option maxRecDepth 2000 in
theorem members_of_baseApi : membersOf RuntimeItem.baseApi.lines = baseMembers := by
  unfold RuntimeItem.baseApi baseMembers
  repeat first
    | refine membersOf_skip ?_ (by decide +kernel)
    | refine membersOf_take ?_ (by decide +kernel)
    | refine membersOf_take_two ?_ (by decide +kernel)
  rfl

/-! ## Names of methods -/

/-- No member is the raw variant of anything. -/
theorem ne_raw_of_mem {name : String} (mem : name ∈ baseMembers) (other : String) :
    other ++ "Raw" ≠ name := by
  have ended : other ++ "Raw" ∉ baseMembers := Name.append_not_mem (by decide +kernel) other
  rintro rfl
  exact ended mem

theorem endsInDigit_of_mem : ∀ name ∈ baseMembers, Name.endsInDigit name = false := by
  decide +kernel

/-- **Which methods are called like members.** A class has, behind its constructor, a raw method and
one that calls it for each operation. The raw method is called like no member of the class that all
clients extend. The other one is called like a member exactly if its operation asks for that name,
and the methods for earlier operations have neither it nor its raw variant. -/
theorem classFor_members {scope : Scope} {width : Int} {security : List Value}
    {modules : List (String × String)} {tag : String} {operations : List Operation}
    {c : Client.Class}
    (ended : (classFor scope width security modules tag operations).result = .ok c) :
    ∃ pairs : List (Method × Method),
      c.methods = constructorMethod ::
        pairs.flatMap (fun p : Method × Method => [p.1, p.2]) ∧
      pairs.length = operations.length ∧
      ∀ (n : Nat) (o : Operation) (raw conv : Method), operations[n]? = some o →
        pairs[n]? = some (raw, conv) →
        raw.signature.name ∉ membersOf RuntimeItem.baseApi.lines ∧
        ∀ member ∈ membersOf RuntimeItem.baseApi.lines, conv.signature.name = member ↔
          methodName? o.operationId o.method o.path = some member ∧
          ∀ p ∈ pairs.take n, p.2.signature.name ≠ member ∧
            p.2.signature.name ≠ member ++ "Raw" := by
  obtain ⟨pairs, methods, named, raws⟩ := Client.classFor_named ended
  have length : pairs.length = operations.length := by
    rw [← named.length_eq, List.length_map]
  rw [members_of_baseApi]
  refine ⟨pairs, methods, length, fun n o raw conv here here' => ⟨fun mem => ?_, ?_⟩⟩
  · exact ne_raw_of_mem mem _ (raws _ (List.mem_of_getElem? here')).symm
  · intro member mem
    have given : (pairs.map (·.2.signature.name))[n]? = some conv.signature.name := by
      rw [List.getElem?_map, here']
      rfl
    rw [named.eq_iff here given (endsInDigit_of_mem member mem), List.append_nil,
      Client.isFreeMethodName_givenNames_iff (ne_raw_of_mem mem), ← List.map_take,
      List.forall_mem_map]

/-- Operations that ask for names of members. -/
def cloning : List Operation := ["cloneRaw", "clone", "request"].map fun name =>
  { Client.deletion with operationId := .str name }

theorem classFor_members_of_cloning :
    ∃ c, (classFor ⟨[], 64⟩ 80 [] [] "pets" cloning).result = .ok c ∧
      ∃ pairs : List (Method × Method),
        c.methods = constructorMethod ::
          pairs.flatMap (fun p : Method × Method => [p.1, p.2]) ∧
        pairs.length = cloning.length ∧
        ∀ (n : Nat) (o : Operation) (raw conv : Method), cloning[n]? = some o →
          pairs[n]? = some (raw, conv) →
          raw.signature.name ∉ membersOf RuntimeItem.baseApi.lines ∧
          ∀ member ∈ membersOf RuntimeItem.baseApi.lines, conv.signature.name = member ↔
            methodName? o.operationId o.method o.path = some member ∧
            ∀ p ∈ pairs.take n, p.2.signature.name ≠ member ∧
              p.2.signature.name ≠ member ++ "Raw" := by
  have succeeds : (classFor ⟨[], 64⟩ 80 [] [] "pets" cloning).result.isOk := by decide +kernel
  obtain ⟨c, ended⟩ := exists_eq_ok succeeds
  exact ⟨c, ended, classFor_members ended⟩

/-- Operations may ask for the name of the constructor, and for those of members. They get them. -/
theorem methods_called_like_members :
    (classFor ⟨[], 64⟩ 80 [] [] "pets" (["constructor", "request"].map fun name =>
        { Client.deletion with operationId := .str name })).result.map
      (fun c => c.methods.map (·.signature.name)) =
        .ok ["constructor", "constructorRaw", "constructor", "requestRaw", "request"] ∧
    "constructor" ∈ membersOf RuntimeItem.baseApi.lines ∧
      "request" ∈ membersOf RuntimeItem.baseApi.lines := by
  rw [members_of_baseApi]
  decide +kernel

end ClientGen.Package
