import ClientGen.Value.Basic

/-!
# The order of sets

The members of a set of numbers stand in a table, each at a place that its residue gives, and the
order of the table is the order of the set. Where a place is taken the next ones are tried, and then
a place further on. A copy of a set has a table of its own. Members that are no numbers have no
residue: a set that holds one keeps the order in which its members came.
-/

namespace ClientGen.SetOrder

/-! ## Residues -/

/-- The modulus of residues, a prime. -/
def modulus : Nat := Nat.pow 2 61 - 1

/-- The residue of a fraction whose denominator is two to the power of `halvings`. Halving is
multiplying by two to the power of sixty, since two to the power of sixty-one counts as one. -/
def residueOfFraction (numerator : Int) (halvings : Nat) : Int :=
  let magnitude := numerator.natAbs * Nat.pow 2 ((61 - halvings % 61) % 61) % modulus
  let signed : Int := if numerator < 0 then -magnitude else magnitude
  if signed = -1 then -2 else signed

/-- How often a power of two can be halved. -/
def halvingsOf : (fuel n : Nat) → Nat
  | 0, _ => 0
  | fuel + 1, n => if n ≤ 1 then 0 else halvingsOf fuel (n / 2) + 1

/-- The residue of a member that has one. -/
def residue? : Key → Option Int
  | .float (.infinite negative) => some (if negative then -314159 else 314159)
  | k => k.fraction?.map fun (numerator, denominator) =>
    residueOfFraction numerator (halvingsOf denominator denominator)

/-! ## Tables -/

/-- The least size of a table with more than `least` places: sizes are powers of two from eight
on. -/
def sizeBeyond : (fuel least : Nat) → Nat
  | 0, _ => 8
  | fuel + 1, least =>
    let size := sizeBeyond fuel least
    if size ≤ least then 2 * size else size

/-- A table of members with their residues. -/
abbrev Table := Array (Option (Key × Int))

/-- The members of a table. -/
def membersOf (table : Table) : List (Key × Int) := table.toList.filterMap id

/-- How many places behind a taken one are tried. -/
def neighbours : Nat := 9

/-- The first free place among `count` ones from a place on. -/
def freeFrom? (table : Table) (place : Nat) : (count : Nat) → Option Nat
  | 0 => none
  | count + 1 =>
    match table[place]? with
    | some none => some place
    | _ => freeFrom? table (place + 1) count

/-- The place for a member: the first free one at or behind `place`, and otherwise near the place
that `rest`, the part of the residue that was not used yet, leads to. -/
def placeFor (table : Table) : (fuel place rest : Nat) → Nat
  | 0, place, _ => place
  | fuel + 1, place, rest =>
    let count := if place + neighbours < table.size then neighbours + 1 else 1
    match freeFrom? table place count with
    | some free => free
    | none => placeFor table fuel ((5 * place + 1 + rest / 32) % table.size) (rest / 32)

/-- The table with another member. -/
def put (table : Table) (member : Key × Int) : Table :=
  let bits := (member.2 % (Nat.pow 2 64 : Nat)).toNat
  table.setIfInBounds (placeFor table (table.size + 64) (bits % table.size) bits) (some member)

/-- A table of a size that members are put into. -/
def filled (size : Nat) (members : List (Key × Int)) : Table :=
  members.foldl put (Array.replicate size none)

/-- The table with another member, in a larger size once three of five places are taken. -/
def add (table : Table) (member : Key × Int) : Table :=
  let table := put table member
  let members := membersOf table
  if 3 * (table.size - 1) ≤ 5 * members.length then
    filled (sizeBeyond members.length (4 * members.length)) members
  else table

/-! ## Orders -/

/-- The order of members in the table that a function makes of them. -/
def orderedBy (tableOf : List (Key × Int) → Table) (members : List Key) : List Key :=
  match members.mapM fun k => (residue? k).map fun r => (k, r) with
  | none => members
  | some residues => (membersOf (tableOf residues)).map (·.1)

/-- Members in the order of their set. Its table has the size for all of them from the start. -/
def ordered (members : List Key) : List Key :=
  orderedBy (fun residues =>
    let count := residues.length
    filled (if count ≤ 4 then 8 else sizeBeyond count (2 * count)) residues) members

/-- The members of a set in the order of its copy, whose table grows with each of them. -/
def copied (members : List Key) : List Key :=
  orderedBy (fun residues => residues.foldl add (filled 8 [])) members

end ClientGen.SetOrder
