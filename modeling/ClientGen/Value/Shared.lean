import ClientGen.Value.Basic

/-!
# Values with shared parts

A list or a mapping of a document may stand in several places, even inside itself. A document is
kept as a tree with links between the places where one thing stands: what stands in several places
is written out in each of them, save inside itself. The tree is finite, and following the links
shows what stands below any place of it.
-/

namespace ClientGen

/-! ## Places -/

namespace Value

/-- A step from a list, a pair or a mapping to something in it. -/
inductive Step where
  | item (index : Nat)
  | entry (key : Key)
deriving DecidableEq, Repr

/-- The steps to a place, the last one first. -/
abbrev Place := List Step

/-- What a step leads to. -/
def child? : Value → Step → Option Value
  | list items, .item n => items[n]?
  | pair a b, .item n => [a, b][n]?
  | map entries, .entry k => (entries.find? fun e => e.1 = k).map (·.2)
  | _, _ => none

/-- Places where something stands that stands elsewhere before, each with the place where it stands
first. -/
abbrev Links := List (Place × Place)

namespace Links

/-- The place where that stands first which stands at a place. -/
def origin (links : Links) : Place → Place
  | [] => []
  | step :: rest =>
    let place := step :: origin links rest
    (links.lookup place).getD place

/-- Whether something stands inside itself. -/
def hasLoop (links : Links) : Bool := links.any fun l => l.2.isSuffixOf l.1

end Links

end Value

/-- A value and the place where it stands. -/
structure Spot where
  value : Value
  place : Value.Place := []

/-- Changes the value of a spot. -/
def Spot.map (f : Spot → Value) (x : Spot) : Spot := { x with value := f x }

/-! ## Trees with links -/

/-- A value whose parts may stand in several places. -/
structure Shared where
  root : Value
  links : Value.Links := []
  /-- A bound for the number of values inside one another. -/
  depth : Nat := 0

namespace Shared

/-- What stands at a place. -/
def at? (s : Shared) : Value.Place → Option Value
  | [] => some s.root
  | step :: rest => (s.at? rest).bind (·.child? step)

/-- The spot of what stands at a place. Where something stands inside itself it is looked up at its
first place. -/
def spot (s : Shared) (place : Value.Place) (v : Value) : Spot :=
  if s.links.hasLoop then
    let first := s.links.origin place
    ⟨(s.at? first).getD v, first⟩
  else ⟨v, place⟩

/-- The spots of items at a place. -/
def itemSpots (s : Shared) (place : Value.Place) (items : List Value) : List Spot :=
  items.mapIdx fun n v => s.spot (.item n :: place) v

/-- The spots of entries at a place. -/
def entrySpots (s : Shared) (place : Value.Place) (entries : Entries) : List (Key × Spot) :=
  entries.map fun (k, v) => (k, s.spot (.entry k :: place) v)

/-! ## Looking into a spot -/

/-- The spot of the whole. -/
def rootSpot (s : Shared) : Spot := ⟨s.root, []⟩

/-- The entries of a mapping; other values have none. -/
def entries (s : Shared) (x : Spot) : List (Key × Spot) :=
  match x.value with
  | .map es => s.entrySpots x.place es
  | _ => []

/-- What stands under a name in a mapping. -/
def find? (s : Shared) (x : Spot) (name : String) : Option Spot :=
  match x.value with
  | .map es => (Entries.find? name es).map (s.spot (.entry (.str name) :: x.place))
  | _ => none

/-- What stands under a name in a mapping, or `null`. -/
def get (s : Shared) (x : Spot) (name : String) : Spot := (s.find? x name).getD ⟨.null, []⟩

/-- What a value lists. -/
def listed? (s : Shared) (x : Spot) : Option (List Spot) :=
  match x.value with
  | .list items => some (s.itemSpots x.place items)
  | .pair a b => some (s.itemSpots x.place [a, b])
  | v => v.listed?.map fun vs => vs.map fun w => ⟨w, []⟩

/-! ## Writing out -/

/-- A value written out in full, save for the lists and mappings at the places around it. -/
def unfold (s : Shared) : (fuel : Nat) → (around : List Value.Place) → Spot → Value
  | 0, _, x => x.value
  | fuel + 1, around, x =>
    match x.value with
    | .list items =>
      if around.contains x.place then .loop .list
      else .list ((s.itemSpots x.place items).map (s.unfold fuel (x.place :: around)))
    | .map entries =>
      if around.contains x.place then .loop .map
      else .map ((s.entrySpots x.place entries).map fun (k, y) =>
        (k, s.unfold fuel (x.place :: around) y))
    | .pair a b =>
      if around.contains x.place then .loop .pair
      else
        match (s.itemSpots x.place [a, b]).map (s.unfold fuel (x.place :: around)) with
        | [c, d] => .pair c d
        | _ => x.value
    | v => v

/-- The value of a spot as it looks from there. -/
def whole (s : Shared) (x : Spot) : Value :=
  if s.links.hasLoop then s.unfold s.depth [] x else x.value

/-- The value under a name in a mapping, or `null`. -/
def valueOf (s : Shared) (x : Spot) (name : String) : Value := s.whole (s.get x name)

/-- A spot with its value written out. -/
def written (s : Shared) (x : Spot) : Spot := { x with value := s.whole x }

end Shared

end ClientGen
