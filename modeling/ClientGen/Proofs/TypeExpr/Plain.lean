import ClientGen.Proofs.TypeExpr.Printed
import ClientGen.TypeExpr.Normal

/-!
# Types as they are printed

Types that are told apart only by how they are represented are printed alike: a leaf is its text, an
array is a named type with an argument, a function without a result has the result `void`, and a
union of unions is one union. The plain form of a type (`plain`) has one representation of each, it
consists of the same words and marks (`tokens_plain`), and it is made of few forms of types
(`settled_plain`).
-/

namespace ClientGen.TypeExpr

/-! ### Changing a type from below -/

/-- A type with its children changed. -/
def mapChildren (f : TypeExpr → TypeExpr) : TypeExpr → TypeExpr
  | ref name arguments => ref name (arguments.map f)
  | array element => array (f element)
  | tuple elements => tuple (elements.map f)
  | object members => object (members.map fun m => { m with type := f m.type })
  | union members => union (members.map f)
  | inter members => inter (members.map f)
  | function arguments result =>
    function (arguments.map fun a => { a with type := f a.type }) (result.map f)
  | index key value => index key (f value)
  | t => t

mutual

/-- A type with every type in it changed by `node`, from below. -/
def rebuild (node : TypeExpr → TypeExpr) : TypeExpr → TypeExpr
  | primitive p => node (primitive p)
  | generic name => node (generic name)
  | literal text => node (literal text)
  | ref name arguments => node (ref name (rebuildList node arguments))
  | array element => node (array (rebuild node element))
  | tuple elements => node (tuple (rebuildList node elements))
  | object members => node (object (rebuildMembers node members))
  | union members => node (union (rebuildList node members))
  | inter members => node (inter (rebuildList node members))
  | function arguments result =>
    node (function (rebuildArguments node arguments) (rebuildOption node result))
  | index key value => node (index key (rebuild node value))

/-- The types of a list, each changed from below. -/
def rebuildList (node : TypeExpr → TypeExpr) : List TypeExpr → List TypeExpr
  | [] => []
  | t :: rest => rebuild node t :: rebuildList node rest

/-- Properties with their types changed from below. -/
def rebuildMembers (node : TypeExpr → TypeExpr) : List (Member TypeExpr) → List (Member TypeExpr)
  | [] => []
  | ⟨name, t, o, r⟩ :: rest => ⟨name, rebuild node t, o, r⟩ :: rebuildMembers node rest

/-- Parameters with their types changed from below. -/
def rebuildArguments (node : TypeExpr → TypeExpr) :
    List (Argument TypeExpr) → List (Argument TypeExpr)
  | [] => []
  | ⟨name, t, o⟩ :: rest => ⟨name, rebuild node t, o⟩ :: rebuildArguments node rest

/-- A type that may be missing, changed from below. -/
def rebuildOption (node : TypeExpr → TypeExpr) : Option TypeExpr → Option TypeExpr
  | none => none
  | some t => some (rebuild node t)

end

theorem rebuild_eq (node : TypeExpr → TypeExpr) (t : TypeExpr) :
    rebuild node t = node (t.mapChildren (rebuild node)) := by
  have list (ts : List TypeExpr) : rebuildList node ts = ts.map (rebuild node) := by
    induction ts with
    | nil => rfl
    | cons t ts ih => rw [rebuildList, ih, List.map_cons]
  cases t with
  | primitive | generic | literal | array | index => rfl
  | ref | tuple | union | inter => rw [rebuild, mapChildren, list]
  | object members =>
    have all : rebuildMembers node members =
        members.map fun m => { m with type := rebuild node m.type } := by
      induction members with
      | nil => rfl
      | cons m ms ih => rw [rebuildMembers, ih, List.map_cons]
    rw [rebuild, mapChildren, all]
  | function arguments result =>
    have all : rebuildArguments node arguments =
        arguments.map fun a => { a with type := rebuild node a.type } := by
      induction arguments with
      | nil => rfl
      | cons a as ih => rw [rebuildArguments, ih, List.map_cons]
    rw [rebuild, mapChildren, all]
    cases result <;> rfl

/-- The children of a type whose children were changed. -/
theorem children_mapChildren (f : TypeExpr → TypeExpr) (t : TypeExpr) :
    (t.mapChildren f).children = t.children.map f := by
  cases t with
  | function arguments result => cases result <;> simp [mapChildren, children]
  | _ => simp [mapChildren, children]

/-! ### Plain types -/

/-- The text of a leaf as a literal, an array as a named type with an argument, a function with a
result, and a union or an intersection with the members of those among its members. -/
def plainNode : TypeExpr → TypeExpr
  | primitive p => literal p.keyword
  | ref name [] => literal name
  | generic name => literal name
  | array element => ref "Array" [element]
  | union members => union (members.flatMap unionMembers)
  | inter members => inter (members.flatMap interMembers)
  | function arguments none => function arguments (some (literal "void"))
  | t => t

/-- The plain form of a type. -/
def plain (t : TypeExpr) : TypeExpr := rebuild plainNode t

theorem plain_eq (t : TypeExpr) : plain t = plainNode (t.mapChildren plain) :=
  rebuild_eq plainNode t

/-- A type with other names for its own properties. -/
def renameNode (f : String → String) : TypeExpr → TypeExpr
  | object members => object (members.map fun m => { m with name := f m.name })
  | t => t

/-- A type with other names for all properties in it. -/
def renameProperties (f : String → String) (t : TypeExpr) : TypeExpr := rebuild (renameNode f) t

theorem renameProperties_eq (f : String → String) (t : TypeExpr) :
    renameProperties f t = renameNode f (t.mapChildren (renameProperties f)) :=
  rebuild_eq (renameNode f) t

/-- Whether a type is as the types in a plain one are. -/
def IsSettled : TypeExpr → Prop
  | literal _ | tuple _ | object _ | index _ _ | function _ (some _) => True
  | ref _ arguments => arguments ≠ []
  | union members => 2 ≤ members.length ∧ ∀ m ∈ members, ∀ inner, m ≠ union inner
  | inter members => 2 ≤ members.length ∧ ∀ m ∈ members, ∀ inner, m ≠ inter inner
  | _ => False

/-- Whether a type is as plain ones are, at every depth. -/
def Settled (t : TypeExpr) : Prop := Everywhere IsSettled t

theorem length_le_length_flatMap {α β : Type} {f : α → List β} {xs : List α}
    (some : ∀ x ∈ xs, f x ≠ []) : xs.length ≤ (xs.flatMap f).length := by
  induction xs with
  | nil => exact Nat.le_refl 0
  | cons x xs ih =>
    obtain ⟨first, others⟩ := List.forall_mem_cons.1 some
    have one := List.length_pos_iff.2 first
    have more := ih others
    rw [List.flatMap_cons, List.length_append, List.length_cons]
    omega

section opened

variable {form : List TypeExpr → TypeExpr} {opened : TypeExpr → List TypeExpr}
  (h : SetForm form opened)
  (isSettled : ∀ ms, IsSettled (form ms) ↔ 2 ≤ ms.length ∧ ∀ m ∈ ms, ∀ inner, m ≠ form inner)
  {members : List TypeExpr} (below : ∀ m ∈ members, Settled m)

include h isSettled below

theorem opened_ne_nil_of_settled : ∀ m ∈ members, opened m ≠ [] := by
  intro m mem
  have some (ms : List TypeExpr) (top : IsSettled (form ms)) : ms ≠ [] :=
    ne_nil_of_two_le ((isSettled ms).1 top).1
  exact h.opened_ne_nil some (everywhere_iff.1 (below m mem)).1

/-- Several settled types are settled together once they are opened. -/
theorem settled_opened (several : 2 ≤ members.length) :
    Settled (form (members.flatMap opened)) := by
  have inside : ∀ u ∈ members.flatMap opened, Settled u ∧ ∀ inner, u ≠ form inner := by
    intro u mem
    obtain ⟨m, child, mem⟩ := List.mem_flatMap.1 mem
    exact h.of_mem_opened (fun ms top => ((isSettled ms).1 top).2) (below m child) mem
  have enough := length_le_length_flatMap (opened_ne_nil_of_settled h isSettled below)
  refine everywhere_iff.2 ⟨(isSettled _).2 ⟨Nat.le_trans several enough, fun u mem =>
    (inside u mem).2⟩, ?_⟩
  rw [h.children_form]
  exact fun u mem => (inside u mem).1

end opened

/-- Whether a union and an intersection have several members. -/
def HasOperands : TypeExpr → Prop
  | union members => 2 ≤ members.length
  | inter members => 2 ≤ members.length
  | _ => True

/-- A type with settled children is settled once it is changed as plain types are. -/
theorem settled_plainNode {t : TypeExpr} (several : t.HasOperands)
    (below : ∀ u ∈ t.children, Settled u) : Settled (plainNode t) := by
  have leaf (s : String) : Settled (literal s) := everywhere_of_no_children rfl trivial
  cases t with
  | primitive p => exact leaf _
  | generic name => exact leaf _
  | literal text => exact leaf _
  | ref name arguments =>
    cases arguments with
    | nil => exact leaf _
    | cons a as => exact everywhere_iff.2 ⟨List.cons_ne_nil a as, below⟩
  | array element => exact everywhere_iff.2 ⟨List.cons_ne_nil element [], below⟩
  | tuple elements => exact everywhere_iff.2 ⟨trivial, below⟩
  | object members => exact everywhere_iff.2 ⟨trivial, below⟩
  | index key value => exact everywhere_iff.2 ⟨trivial, below⟩
  | function arguments result =>
    cases result with
    | some result => exact everywhere_iff.2 ⟨trivial, below⟩
    | none =>
      refine everywhere_iff.2 ⟨trivial, fun u mem => ?_⟩
      rcases List.mem_append.1 mem with argument | returned
      · exact below u (List.mem_append_left _ argument)
      · rw [List.mem_singleton.1 returned]
        exact leaf _
  | union members => exact settled_opened setForm_union (fun _ => Iff.rfl) below several
  | inter members => exact settled_opened setForm_inter (fun _ => Iff.rfl) below several

theorem IsPrintable.hasOperands {t : TypeExpr} (h : t.IsPrintable) (f : TypeExpr → TypeExpr) :
    (t.mapChildren f).HasOperands := by
  cases t with
  | union members =>
    rw [mapChildren, HasOperands, List.length_map]
    exact h
  | inter members =>
    rw [mapChildren, HasOperands, List.length_map]
    exact h
  | _ => trivial

/-- The plain form of a printable type is settled. -/
theorem settled_plain {t : TypeExpr} (printable : Printable t) : Settled (plain t) := by
  induction t using inductionOnChildren with
  | step t ih =>
  obtain ⟨here, below⟩ := everywhere_iff.1 printable
  rw [plain_eq]
  refine settled_plainNode (here.hasOperands plain) ?_
  rw [children_mapChildren]
  exact List.forall_mem_map.2 fun u mem => ih u mem (below u mem)

/-! ### Plain types in print -/

theorem separated_append (c : Char) {fs gs : List (List Token → List Token)} (some : fs ≠ [])
    (some' : gs ≠ []) (after : List Token) :
    separated c (fs ++ gs) after = separated c fs (.mark c :: separated c gs after) := by
  induction fs with
  | nil => exact absurd rfl some
  | cons f fs ih =>
    cases fs with
    | nil =>
      cases gs with
      | nil => exact absurd rfl some'
      | cons g gs => rfl
    | cons f' fs => exact congrArg (fun ts => f (.mark c :: ts)) (ih (List.cons_ne_nil f' fs))

/-- Lists one after the other are separated in the same way as their items. -/
theorem separated_flatMap {α : Type} (c : Char) {f : α → List (List Token → List Token)}
    {xs : List α} (some : ∀ x ∈ xs, f x ≠ []) :
    separated c (xs.flatMap f) = separated c (xs.map fun x => separated c (f x)) := by
  induction xs with
  | nil => rfl
  | cons x xs ih =>
    obtain ⟨first, others⟩ := List.forall_mem_cons.1 some
    cases xs with
    | nil => simp [separated]
    | cons y ys =>
      have some' : (y :: ys).flatMap f ≠ [] := by simp [others y List.mem_cons_self]
      funext after
      rw [List.flatMap_cons, separated_append c first some', ih others]
      rfl

/-- Operands that are opened have the same words and marks, if those of the form are those of its
members. -/
theorem separated_opened {form : List TypeExpr → TypeExpr} {opened : TypeExpr → List TypeExpr}
    (h : SetForm form opened)
    (isSettled : ∀ ms, IsSettled (form ms) ↔ 2 ≤ ms.length ∧ ∀ m ∈ ms, ∀ inner, m ≠ form inner)
    {c : Char} {operand : TypeExpr → List Token → List Token}
    (operands : ∀ ms, separated c (ms.map operand) = operand (form ms)) {members : List TypeExpr}
    (below : ∀ m ∈ members, Settled m) :
    separated c ((members.flatMap opened).map operand) = separated c (members.map operand) := by
  have whole (t : TypeExpr) : separated c ((opened t).map operand) = operand t := by
    rcases h.form_or_other t with ⟨ms, rfl, opens⟩ | ⟨-, opens⟩
    · rw [opens, operands]
    · rw [opens]
      rfl
  have some : ∀ m ∈ members, (opened m).map operand ≠ [] := fun m mem none =>
    opened_ne_nil_of_settled h isSettled below m mem (List.map_eq_nil_iff.1 none)
  rw [List.map_flatMap, separated_flatMap c some]
  simp only [whole]

/-- Changing a type as plain types are changes nothing in print. -/
theorem tokens_plainNode {t : TypeExpr} (below : ∀ u ∈ t.children, Settled u) :
    tokens (plainNode t) = tokens t := by
  cases t with
  | ref name arguments => cases arguments <;> rfl
  | function arguments result => cases result <;> rfl
  | union members =>
    rw [plainNode, tokens_union, tokens_union]
    exact separated_opened setForm_union (fun _ => Iff.rfl) (fun ms => (tokens_union ms).symm) below
  | inter members =>
    rw [plainNode, tokens_inter, tokens_inter]
    exact separated_opened setForm_inter (fun _ => Iff.rfl) (fun ms => (tokens_inter ms).symm) below
  | _ => rfl

/-- Whether two types are printed alike, alone and as operands. -/
def PrintsAlike (t u : TypeExpr) : Prop :=
  tokens t = tokens u ∧ t.wrapsInUnion = u.wrapsInUnion ∧ t.wrapsInInter = u.wrapsInInter

/-- A type whose children are changed to types that are printed alike is printed alike. -/
theorem tokens_mapChildren {f : TypeExpr → TypeExpr} {t : TypeExpr}
    (alike : ∀ u ∈ t.children, PrintsAlike (f u) u) : tokens (t.mapChildren f) = tokens t := by
  have same (ts : List TypeExpr) (h : ∀ u ∈ ts, PrintsAlike (f u) u) :
      (ts.map f).map tokens = ts.map tokens := by
    rw [List.map_map]
    exact List.map_congr_left fun u mem => (h u mem).1
  cases t with
  | primitive | generic | literal => rfl
  | ref name arguments =>
    cases arguments with
    | nil => rfl
    | cons a as =>
      rw [mapChildren, List.map_cons, tokens_ref, tokens_ref, ← List.map_cons,
        same (a :: as) alike]
  | array element =>
    funext after
    rw [mapChildren, tokens, tokens, (alike element List.mem_cons_self).1]
  | tuple elements => rw [mapChildren, tokens_tuple, tokens_tuple, same elements alike]
  | union members =>
    rw [mapChildren, tokens_union, tokens_union, List.map_map]
    refine congrArg (separated '|') (List.map_congr_left fun u mem => ?_)
    obtain ⟨inside, inUnion, -⟩ := alike u mem
    rw [Function.comp_apply, inside, inUnion]
  | inter members =>
    rw [mapChildren, tokens_inter, tokens_inter, List.map_map]
    refine congrArg (separated '&') (List.map_congr_left fun u mem => ?_)
    obtain ⟨inside, -, inInter⟩ := alike u mem
    rw [Function.comp_apply, inside, inInter]
  | function arguments result =>
    have argument : (arguments.map fun a => { a with type := f a.type }).map argumentTokens =
        arguments.map argumentTokens := by
      rw [List.map_map]
      refine List.map_congr_left fun a mem => ?_
      funext after
      have inside := (alike a.type (List.mem_append_left _ (List.mem_map_of_mem mem))).1
      rw [Function.comp_apply, argumentTokens, argumentTokens, inside]
    have returned : tokensOfResult (result.map f) = tokensOfResult result := by
      cases result with
      | none => rfl
      | some t => exact (alike t (List.mem_append_right _ List.mem_cons_self)).1
    rw [mapChildren, tokens_function, tokens_function, argument, returned]
  | object members =>
    have member : (members.map fun m => { m with type := f m.type }).map memberTokens =
        members.map memberTokens := by
      rw [List.map_map]
      refine List.map_congr_left fun m mem => ?_
      funext after
      have inside := (alike m.type (List.mem_map_of_mem mem)).1
      rw [Function.comp_apply, memberTokens, memberTokens, inside]
    rw [mapChildren, tokens_object, tokens_object, member]
  | index key value =>
    funext after
    rw [mapChildren, tokens, tokens, (alike value List.mem_cons_self).1]

theorem wraps_plain (t : TypeExpr) :
    (plain t).wrapsInUnion = t.wrapsInUnion ∧ (plain t).wrapsInInter = t.wrapsInInter := by
  rw [plain_eq]
  cases t with
  | ref name arguments => cases arguments <;> exact ⟨rfl, rfl⟩
  | function arguments result => cases result <;> exact ⟨rfl, rfl⟩
  | _ => exact ⟨rfl, rfl⟩

/-- A printable type and its plain form have the same words and marks. -/
theorem tokens_plain {t : TypeExpr} (printable : Printable t) : tokens (plain t) = tokens t := by
  induction t using inductionOnChildren with
  | step t ih =>
  obtain ⟨-, below⟩ := everywhere_iff.1 printable
  have settled : ∀ u ∈ (t.mapChildren plain).children, Settled u := by
    rw [children_mapChildren]
    exact List.forall_mem_map.2 fun u mem => settled_plain (below u mem)
  calc tokens (plain t)
    _ = tokens (plainNode (t.mapChildren plain)) := by rw [plain_eq]
    _ = tokens (t.mapChildren plain) := tokens_plainNode settled
    _ = tokens t := tokens_mapChildren fun u mem => ⟨ih u mem (below u mem), wraps_plain u⟩

end ClientGen.TypeExpr
