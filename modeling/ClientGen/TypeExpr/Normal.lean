import ClientGen.TypeExpr.Order

/-!
# Unions and intersections in normal form

The members of a union are a set: nested unions are opened, repeated members are dropped, and the
rest stands in the order of types. A set of one member is that member; the empty union is `never`
and the empty intersection `unknown`.
-/

namespace ClientGen.TypeExpr

/-- Puts a type into its place in an ascending list, unless it is there already. -/
def insertOrdered (t : TypeExpr) : List TypeExpr → List TypeExpr
  | [] => [t]
  | u :: rest =>
    match compare t u with
    | .lt => t :: u :: rest
    | .eq => u :: rest
    | .gt => u :: insertOrdered t rest

/-- The types of a list in ascending order, each once. -/
def orderedSet (ts : List TypeExpr) : List TypeExpr := ts.foldr insertOrdered []

/-- The members of a union; any other type is its own only member. -/
def unionMembers : TypeExpr → List TypeExpr
  | union members => members
  | t => [t]

/-- The members of an intersection; any other type is its own only member. -/
def interMembers : TypeExpr → List TypeExpr
  | inter members => members
  | t => [t]

/-- The union of types. -/
def unionOf (ts : List TypeExpr) : TypeExpr :=
  match orderedSet (ts.flatMap unionMembers) with
  | [] => never
  | [t] => t
  | members => union members

/-- The intersection of types. -/
def interOf (ts : List TypeExpr) : TypeExpr :=
  match orderedSet (ts.flatMap interMembers) with
  | [] => unknown
  | [t] => t
  | members => inter members

end ClientGen.TypeExpr
