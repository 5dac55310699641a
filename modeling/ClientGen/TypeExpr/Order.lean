import ClientGen.Text.CodePoint
import ClientGen.TypeExpr.Basic

/-!
# The order of types

Types are ordered first by their form and then by their parts from left to right; a list that
another begins with comes first, and so does a missing result type. `compare_eq_iff` says that two
types of the same place are equal, which makes equality of types decidable.
-/

namespace ClientGen.TypeExpr

/-- The place of a form among the forms. -/
def rank : TypeExpr → Nat
  | primitive _ => 0
  | ref _ _ => 1
  | array _ => 2
  | tuple _ => 3
  | object _ => 4
  | union _ => 5
  | inter _ => 6
  | function _ _ => 7
  | literal _ => 8
  | generic _ => 9
  | index _ _ => 10

/-- The order of truth values, `false` first. -/
def compareBool : Bool → Bool → Ordering
  | false, true => .lt
  | true, false => .gt
  | _, _ => .eq

/-- The order of natural numbers. -/
def compareNat (m n : Nat) : Ordering := if m < n then .lt else if m = n then .eq else .gt

mutual

/-- The order of two types. -/
def compare : TypeExpr → TypeExpr → Ordering
  | primitive p, primitive q => compareNat p.rank q.rank
  | ref m as, ref n bs => (Text.compare m n).then (compareLists as bs)
  | array a, array b => compare a b
  | tuple as, tuple bs => compareLists as bs
  | object ms, object ns => compareMembers ms ns
  | union as, union bs => compareLists as bs
  | inter as, inter bs => compareLists as bs
  | function ps r, function qs s => (compareArguments ps qs).then (compareOptions r s)
  | literal s, literal t => Text.compare s t
  | generic m, generic n => Text.compare m n
  | index k a, index l b => (Text.compare k l).then (compare a b)
  | a, b => compareNat a.rank b.rank

/-- The order of two lists of types. -/
def compareLists : List TypeExpr → List TypeExpr → Ordering
  | [], [] => .eq
  | [], _ :: _ => .lt
  | _ :: _, [] => .gt
  | a :: as, b :: bs => (compare a b).then (compareLists as bs)

/-- The order of two lists of properties. -/
def compareMembers : List (Member TypeExpr) → List (Member TypeExpr) → Ordering
  | [], [] => .eq
  | [], _ :: _ => .lt
  | _ :: _, [] => .gt
  | ⟨m, a, o, r⟩ :: ms, ⟨n, b, p, s⟩ :: ns =>
    (Text.compare m n).then ((compare a b).then ((compareBool o p).then ((compareBool r s).then
      (compareMembers ms ns))))

/-- The order of two lists of parameters. -/
def compareArguments : List (Argument TypeExpr) → List (Argument TypeExpr) → Ordering
  | [], [] => .eq
  | [], _ :: _ => .lt
  | _ :: _, [] => .gt
  | ⟨m, a, o⟩ :: ms, ⟨n, b, p⟩ :: ns =>
    (Text.compare m n).then ((compare a b).then ((compareBool o p).then (compareArguments ms ns)))

/-- The order of two types that may be missing. -/
def compareOptions : Option TypeExpr → Option TypeExpr → Ordering
  | none, none => .eq
  | none, some _ => .lt
  | some _, none => .gt
  | some a, some b => compare a b

end

/-! ## Equality -/

theorem compareBool_eq_iff {a b : Bool} : compareBool a b = .eq ↔ a = b := by
  cases a <;> cases b <;> simp [compareBool]

theorem compareNat_eq_iff {m n : Nat} : compareNat m n = .eq ↔ m = n := by
  unfold compareNat
  split
  · simp; omega
  · split <;> simp_all

theorem primitive_rank_inj {p q : Primitive} : p.rank = q.rank ↔ p = q := by
  cases p <;> cases q <;> simp [Primitive.rank]

mutual

/-- Two types of the same place are equal. -/
theorem compare_eq_iff : ∀ a b : TypeExpr, compare a b = .eq ↔ a = b
  | primitive p, b => by
    cases b <;> simp [compare, compareNat_eq_iff, rank, primitive_rank_inj]
  | ref m as, b => by
    cases b <;>
      simp [compare, compareNat_eq_iff, rank, Ordering.then_eq_eq, Text.compare_eq_iff_eq,
        compareLists_eq_iff as]
  | array a, b => by
    cases b <;> simp [compare, compareNat_eq_iff, rank, compare_eq_iff a]
  | tuple as, b => by
    cases b <;> simp [compare, compareNat_eq_iff, rank, compareLists_eq_iff as]
  | object ms, b => by
    cases b <;> simp [compare, compareNat_eq_iff, rank, compareMembers_eq_iff ms]
  | union as, b => by
    cases b <;> simp [compare, compareNat_eq_iff, rank, compareLists_eq_iff as]
  | inter as, b => by
    cases b <;> simp [compare, compareNat_eq_iff, rank, compareLists_eq_iff as]
  | function ps r, b => by
    cases b <;>
      simp [compare, compareNat_eq_iff, rank, Ordering.then_eq_eq, compareArguments_eq_iff ps,
        compareOptions_eq_iff r]
  | literal s, b => by
    cases b <;> simp [compare, compareNat_eq_iff, rank, Text.compare_eq_iff_eq]
  | generic s, b => by
    cases b <;> simp [compare, compareNat_eq_iff, rank, Text.compare_eq_iff_eq]
  | index k a, b => by
    cases b <;>
      simp [compare, compareNat_eq_iff, rank, Ordering.then_eq_eq, Text.compare_eq_iff_eq,
        compare_eq_iff a]

theorem compareLists_eq_iff : ∀ as bs : List TypeExpr, compareLists as bs = .eq ↔ as = bs
  | [], bs => by cases bs <;> simp [compareLists]
  | a :: as, bs => by
    cases bs <;>
      simp [compareLists, Ordering.then_eq_eq, compare_eq_iff a, compareLists_eq_iff as]

theorem compareMembers_eq_iff :
    ∀ ms ns : List (Member TypeExpr), compareMembers ms ns = .eq ↔ ms = ns
  | [], ns => by cases ns <;> simp [compareMembers]
  | _ :: _, [] => by simp [compareMembers]
  | ⟨m, a, o, r⟩ :: ms, ⟨n, b, p, s⟩ :: ns => by
    simp [compareMembers, Ordering.then_eq_eq, Text.compare_eq_iff_eq, compareBool_eq_iff,
      compare_eq_iff a, compareMembers_eq_iff ms, and_assoc]

theorem compareArguments_eq_iff :
    ∀ ms ns : List (Argument TypeExpr), compareArguments ms ns = .eq ↔ ms = ns
  | [], ns => by cases ns <;> simp [compareArguments]
  | _ :: _, [] => by simp [compareArguments]
  | ⟨m, a, o⟩ :: ms, ⟨n, b, p⟩ :: ns => by
    simp [compareArguments, Ordering.then_eq_eq, Text.compare_eq_iff_eq, compareBool_eq_iff,
      compare_eq_iff a, compareArguments_eq_iff ms, and_assoc]

theorem compareOptions_eq_iff : ∀ a b : Option TypeExpr, compareOptions a b = .eq ↔ a = b
  | none, b => by cases b <;> simp [compareOptions]
  | some a, b => by cases b <;> simp [compareOptions, compare_eq_iff a]

end

instance : DecidableEq TypeExpr := fun a b => decidable_of_iff _ (compare_eq_iff a b)

end ClientGen.TypeExpr
