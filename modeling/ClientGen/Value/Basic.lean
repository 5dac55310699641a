import ClientGen.Decimal.Shortest
import ClientGen.Text.CodePoint
import ClientGen.Value.Timestamp

/-!
# Document values

What a JSON or YAML text denotes: scalars, lists, and mappings that keep the order of their
entries. A mapping's keys are scalars of any kind, since YAML allows numbers and truth values as
keys; names are looked up among the keys that are strings. YAML has more kinds of values than JSON:
dates and bytes, pairs and sets, and lists and mappings that contain themselves.
-/

namespace ClientGen

/-- A scalar outside the JSON types. -/
inductive OtherScalar where
  | moment (t : Timestamp)
  | bytes (content : List UInt8)
deriving DecidableEq, Repr

/-- A scalar that names an entry of a mapping. -/
inductive Key where
  | null
  | bool (b : Bool)
  | int (n : Int)
  | float (d : Decimal)
  | str (s : String)
  | other (x : OtherScalar)
deriving DecidableEq, Repr, Inhabited

/-- The kinds of collections that may contain themselves. -/
inductive Collection where
  | list
  | map
  | pair
deriving DecidableEq, Repr

/-- A value of a JSON or YAML document. -/
inductive Value where
  | null
  | bool (b : Bool)
  | int (n : Int)
  | float (d : Decimal)
  | str (s : String)
  | other (x : OtherScalar)
  | list (items : List Value)
  | map (entries : List (Key × Value))
  /-- Two values, as they stand in a list of pairs. -/
  | pair (first second : Value)
  /-- Scalars, each once. -/
  | set (members : List Key)
  /-- A collection that stands around this place: it contains itself. -/
  | loop (kind : Collection)
deriving Repr, Inhabited

/-- The number that a key counts as when keys are compared, by its numerator and its denominator: a
truth value counts as one or zero. -/
def Key.fraction? : Key → Option (Int × Nat)
  | .bool b => some (if b then 1 else 0, 1)
  | .int n => some (n, 1)
  | .float d => d.fraction?
  | _ => none

/-- Whether two keys name the same entry. Numbers are compared by value across their kinds, and
times by the moments that they name. -/
def Key.same (a b : Key) : Bool :=
  a == b || match a, b with
    | .other (.moment t), .other (.moment u) => t.same u
    | a, b =>
      match a.fraction?, b.fraction? with
      | some (m, p), some (n, q) => m * q == n * p
      | _, _ => false

/-- Keys with another one, unless it is there already. -/
def Key.insert (k : Key) : List Key → List Key
  | [] => [k]
  | k' :: rest => if k'.same k then k' :: rest else k' :: Key.insert k rest

/-- Pairs with another one: a key that is already there keeps its place and takes the new value. -/
def Key.put {α : Type} (k : Key) (v : α) : List (Key × α) → List (Key × α)
  | [] => [(k, v)]
  | (k', v') :: rest => if k'.same k then (k', v) :: rest else (k', v') :: Key.put k v rest

/-- Entries of a mapping in document order. -/
abbrev Entries := List (Key × Value)

namespace Entries

/-- The value under a name. -/
def find? (name : String) : Entries → Option Value
  | [] => none
  | (k, v) :: rest => if k = .str name then some v else find? name rest

/-- Whether there is an entry under a name. -/
def has (name : String) (es : Entries) : Bool := (find? name es).isSome

/-- The value under a name, or `null`. -/
def get (name : String) (es : Entries) : Value := (find? name es).getD .null

/-- Sets an entry: a key that is already there keeps its place and takes the new value. -/
def set (k : Key) (v : Value) (es : Entries) : Entries := Key.put k v es

/-- Drops the entries under a name. -/
def erase (name : String) (es : Entries) : Entries := es.filter fun e => e.1 ≠ .str name

/-- Entries in the order of first mention, each with the value of its last mention. -/
def ofPairs (pairs : List (Key × Value)) : Entries := pairs.foldl (fun es p => es.set p.1 p.2) []

end Entries

namespace Value

/-- The value of a key. -/
def ofKey : Key → Value
  | .null => .null
  | .bool b => .bool b
  | .int n => .int n
  | .float d => .float d
  | .str s => .str s
  | .other x => .other x

/-- The key that a scalar makes; no other value makes one. -/
def toKey? : Value → Option Key
  | null => some .null
  | bool b => some (.bool b)
  | int n => some (.int n)
  | float d => some (.float d)
  | str s => some (.str s)
  | other x => some (.other x)
  | _ => none

/-- Whether a value counts as present: `null`, `false`, zero and everything empty do not. -/
def truthy : Value → Bool
  | null => false
  | bool b => b
  | int n => n != 0
  | float d => !d.isZero
  | str s => !s.isEmpty
  | other (.moment _) => true
  | other (.bytes content) => !content.isEmpty
  | list items => !items.isEmpty
  | map entries => !entries.isEmpty
  | pair _ _ => true
  | set members => !members.isEmpty
  | loop _ => true

/-- The text, if the value is a string. -/
def str? : Value → Option String
  | str s => some s
  | _ => none

/-- The entries, if the value is a mapping. -/
def map? : Value → Option Entries
  | map es => some es
  | _ => none

/-- The items, if the value is a list. -/
def list? : Value → Option (List Value)
  | list items => some items
  | _ => none

/-- The value under a name in a mapping; `null` where there is none. -/
def field (v : Value) (name : String) : Value :=
  match v with
  | map es => Entries.get name es
  | _ => null

/-- Whether the value is a mapping. -/
def isMap (v : Value) : Bool := v.map?.isSome

/-- The value, unless it counts as absent. -/
def present? (v : Value) : Option Value := if v.truthy then some v else none

/-- Whether the value is `true`. -/
def isTrue : Value → Bool
  | bool b => b
  | _ => false

/-- What a value lists: the items of a list or a pair, the keys of a mapping, the members of a set,
the code points of a text, the numbers of bytes. Other values list nothing. -/
def listed? : Value → Option (List Value)
  | list items => some items
  | map entries => some (entries.map fun e => ofKey e.1)
  | str s => some ((Text.codes s.toList).map fun n => str (String.ofList (Text.charsOf n)))
  | pair a b => some [a, b]
  | set members => some (members.map ofKey)
  | other (.bytes content) => some (content.map fun b => int b.toNat)
  | _ => none

/-- The keys that a value stands for as the member of a set: those of a scalar. A pair of such
values can be a member too, but is no key. -/
def memberKeys? : Value → Option (List Key)
  | pair a b => do
    let _ ← memberKeys? a
    let _ ← memberKeys? b
    return []
  | v => v.toKey?.map List.singleton

mutual

/-- How deep collections nest in a value. -/
def depth : Value → Nat
  | list items => depthOfItems items + 1
  | map entries => depthOfEntries entries + 1
  | pair a b => max (depth a) (depth b) + 1
  | _ => 0

/-- How deep the items of a list nest. -/
def depthOfItems : List Value → Nat
  | [] => 0
  | v :: rest => max (depth v) (depthOfItems rest)

/-- How deep the values of a mapping nest. -/
def depthOfEntries : List (Key × Value) → Nat
  | [] => 0
  | (_, v) :: rest => max (depth v) (depthOfEntries rest)

end

mutual

/-- Whether a walk through the lists and mappings of a value comes back to one around it, and so
never ends. -/
def isEndless : Value → Bool
  | list items => anyEndless items
  | map entries => anyEndlessEntry entries
  | loop _ => true
  | _ => false

/-- Whether a walk through one of the items of a list never ends. -/
def anyEndless : List Value → Bool
  | [] => false
  | v :: rest => isEndless v || anyEndless rest

/-- Whether a walk through one of the values of a mapping never ends. -/
def anyEndlessEntry : List (Key × Value) → Bool
  | [] => false
  | (_, v) :: rest => isEndless v || anyEndlessEntry rest

end

end Value

end ClientGen
