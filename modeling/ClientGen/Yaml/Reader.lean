import ClientGen.Value.SetOrder
import ClientGen.Value.Shared
import ClientGen.Yaml.Document
import ClientGen.Yaml.Meaning

/-!
# Reading YAML

The value that a document denotes. Its nodes are read level by level from the outermost one, each
once: a collection is there as soon as it is met, and what stands in it is read in its turn. So a
collection may contain itself, and of two faults the one that is less deep counts. Entries of a
mapping that is merged come before those of the mapping around it, and of two entries with one key
the later one counts.
-/

namespace ClientGen.Yaml

/-! ## What nodes denote -/

/-- What a node denotes. What stands in a collection is given by the numbers of nodes. -/
inductive Object where
  | scalar (v : Value)
  | list (items : List Nat)
  | map (entries : List (Key × Nat))
  | set (members : List Key)
  | pairs (items : List (Nat × Nat))
deriving Inhabited

/-- How far the nodes were read. -/
structure Building where
  graph : Graph
  /-- What the nodes denote that were met so far. A collection that waits is empty. -/
  objects : Array (Option Object)
  /-- The collections that were met, in that order. -/
  met : Array Nat := #[]
  /-- A bound for the number of entries that are merged. -/
  bound : Nat

/-- A step of the reading. -/
abbrev Build := StateT Building (Except Fault)

namespace Build

/-- The text denotes nothing. -/
def broken {α : Type} : Build α := throw .broken

/-- What a node holds. -/
def contentOf (number : Nat) : Build (Option Content) := do
  return ((← get).graph[number]?).map (·.content)

/-- The entries of a node, which has to be a mapping. -/
def entriesOf (number : Nat) : Build (List (Nat × Nat)) := do
  match ← contentOf number with
  | some (.mapping entries) => return entries
  | _ => broken

/-- Whether a node has a tag. -/
def hasTag (g : Graph) (tag : Tag) (number : Nat) : Bool := (g[number]?).any fun n => n.tag = tag

/-- Says what a node denotes. -/
def setObject (number : Nat) (object : Object) : Build Unit := fun b =>
  .ok ((), { b with objects := b.objects.setIfInBounds number (some object) })

/-! ## Scalars -/

/-- The text of a node that is read as a scalar. A mapping has the text of the value of its first
key that is marked as the default one. -/
def textOf (g : Graph) : (fuel number : Nat) → Except Fault String
  | 0, _ => .error .unusable
  | fuel + 1, number =>
    match g[number]? with
    | some ⟨_, .scalar text⟩ => .ok text
    | some ⟨_, .mapping entries⟩ =>
      match entries.find? fun e => hasTag g .default e.1 with
      | some e => textOf g fuel e.2
      | none => .error .broken
    | _ => .error .broken

/-- Whether a node is written as a scalar. -/
def isScalar : Content → Bool
  | .scalar _ => true
  | _ => false

/-- A value that tells where it was computed, if that tells it apart from others. -/
def placed (number : Nat) : Value → Value
  | .float (.undefined (some _)) => .float (.undefined (some number))
  | v => v

/-- The value of a scalar. A moment needs a text of its own. -/
def scalarOf (g : Graph) (number : Nat) (node : Node) : Except Fault Value := do
  if node.tag = .merge ∨ node.tag = .default ∨ node.tag = .unknown then throw .broken
  let text ← textOf g (g.size + 1) number
  if node.tag = .timestamp ∧ !isScalar node.content then throw .unusable
  return placed number (← scalarValue node.tag text)

/-- What a collection denotes before anything in it is read. -/
def emptyOf : Tag → Option Object
  | .sequence => some (.list [])
  | .mapping => some (.map [])
  | .set => some (.set [])
  | .pairs => some (.pairs [])
  | _ => none

/-- Meets a node. -/
def meet (number : Nat) : Build Unit := do
  let b ← get
  if ((b.objects[number]?).getD none).isSome then return
  match b.graph[number]? with
  | none => broken
  | some node =>
    match emptyOf node.tag with
    | some object =>
      setObject number object
      modify fun b => { b with met := b.met.push number }
    | none => setObject number (.scalar (← scalarOf b.graph number node))

/-! ## Mappings -/

/-- Makes a text of every key that is marked as the default one. -/
def settleDefaults (entries : List (Nat × Nat)) : Build Unit := modify fun b =>
  { b with graph := entries.foldl (fun g e =>
      if hasTag g .default e.1 then g.modify e.1 fun n => { n with tag := .str } else g) b.graph }

/-- Changes the entries of a mapping. -/
def setEntries (number : Nat) (entries : List (Nat × Nat)) : Build Unit := modify fun b =>
  { b with graph := b.graph.modify number fun n => { n with content := .mapping entries } }

/-- Merges the mappings that the entries of a mapping ask for, from an index on. They are taken away
and replaced by the entries that they bring, after those in `merged`. Of a sequence of mappings the
first one comes last. Every call but the first takes an entry away, which bounds their number. -/
def mergeFrom : (fuel number index : Nat) → (merged : List (Nat × Nat)) → Build Unit
  | 0, _, _, _ => throw .unusable
  | fuel + 1, number, index, merged => do
    let entries ← entriesOf number
    let graph := (← get).graph
    let plain := (entries.drop index).takeWhile fun e => !hasTag graph .merge e.1
    settleDefaults plain
    match entries.drop (index + plain.length) with
    | [] => setEntries number (merged ++ entries)
    | (_, source) :: rest =>
      setEntries number (entries.take (index + plain.length) ++ rest)
      let brought ← match ← contentOf source with
        | some (.mapping _) =>
          mergeFrom fuel source 0 []
          entriesOf source
        | some (.sequence items) =>
          let parts ← items.mapM fun item => do
            let _ ← entriesOf item
            mergeFrom fuel item 0 []
            entriesOf item
          pure parts.reverse.flatten
        | _ => broken
      mergeFrom fuel number (index + plain.length) (merged ++ brought)

/-- The key that a node makes. Collections make none. -/
def keyOf (number : Nat) : Build Key := do
  match ((← get).objects[number]?).getD none with
  | some (.scalar v) =>
    match v.toKey? with
    | some key => return key
    | none => broken
  | _ => broken

/-- Reads the entries of a mapping. -/
def readEntries (number : Nat) : Build (List (Key × Nat)) := do
  let _ ← entriesOf number
  mergeFrom ((← get).bound + 1) number 0 []
  let entries ← entriesOf number
  let read ← entries.mapM fun (k, v) => do
    meet k
    let key ← keyOf k
    meet v
    return (key, v)
  return read.foldl (fun known e => Key.put e.1 e.2 known) []

/-! ## Collections -/

/-- Reads a sequence of mappings with one entry each. -/
def readPairs (items : List Nat) : Build (List (Nat × Nat)) :=
  items.mapM fun item => do
    match ← entriesOf item with
    | [(k, v)] =>
      meet k
      meet v
      return (k, v)
    | _ => broken

/-- Reads what stands in a collection. -/
def fill (number : Nat) : Build Unit := do
  let b ← get
  match b.graph[number]? with
  | none => broken
  | some node =>
    match node.tag, node.content with
    | .sequence, .sequence items =>
      items.forM meet
      setObject number (.list items)
    | .mapping, _ => setObject number (.map (← readEntries number))
    | .set, _ =>
      setObject number (.set (SetOrder.ordered ((← readEntries number).map (·.1))))
    | .pairs, .sequence items => setObject number (.pairs (← readPairs items))
    | _, _ => broken

/-- Reads the collections that were met, from the one with the given index in their order on. -/
def fillFrom : (fuel index : Nat) → Build Unit
  | 0, _ => pure ()
  | fuel + 1, index => do
    match (← get).met[index]? with
    | none => pure ()
    | some number =>
      fill number
      fillFrom fuel (index + 1)

end Build

/-! ## Trees -/

/-- How far a tree is written out. -/
structure Growth where
  /-- The places where collections stand first. -/
  firsts : Array (Option Value.Place)
  /-- The collections that are written out. -/
  done : Array (Option Value)
  links : Value.Links := []

/-- The tree of a node at a place. -/
def treeOf (objects : Array (Option Object)) :
    (fuel number : Nat) → Value.Place → StateM Growth Value
  | 0, _, _ => pure .null
  | fuel + 1, number, place => do
    match (objects[number]?).getD none with
    | none => return .null
    | some (.scalar v) => return v
    | some object =>
      let growth ← get
      match (growth.firsts[number]?).getD none with
      | some first =>
        set { growth with links := (place, first) :: growth.links }
        match (growth.done[number]?).getD none, object with
        | some v, _ => return v
        | none, .map _ => return .loop .map
        | none, _ => return .loop .list
      | none =>
        set { growth with firsts := growth.firsts.setIfInBounds number (some place) }
        let item (n : Nat) (number : Nat) := treeOf objects fuel number (.item n :: place)
        let v ← match object with
          | .scalar v => pure v
          | .set members => pure (.set members)
          | .list items =>
            Value.list <$> (List.range items.length |>.zip items).mapM fun (n, m) => item n m
          | .map entries =>
            Value.map <$> entries.mapM fun (key, m) =>
              return (key, ← treeOf objects fuel m (.entry key :: place))
          | .pairs items =>
            Value.list <$> (List.range items.length |>.zip items).mapM fun (n, k, m) => do
              let inPair (i number : Nat) :=
                treeOf objects fuel number (.item i :: .item n :: place)
              return .pair (← inPair 0 k) (← inPair 1 m)
        modify fun growth => { growth with done := growth.done.setIfInBounds number (some v) }
        return v

/-- The number of the entries of a node. -/
def entryCount : Content → Nat
  | .mapping entries => entries.length
  | _ => 0

/-- The value that a graph denotes, from its outermost node on. -/
def valueOf (root : Nat) (graph : Graph) : Except Fault Shared := do
  let size := graph.size
  let bound := graph.foldl (fun n node => n + entryCount node.content) 0
  let build : Build Unit := do
    Build.meet root
    Build.fillFrom size 0
  let ((), b) ← build.run { graph, objects := Array.replicate size none, bound }
  let growth : Growth :=
    { firsts := Array.replicate size none, done := Array.replicate size none }
  let (tree, growth) := (treeOf b.objects (size + 1) root []).run growth
  return { root := tree, links := growth.links, depth := 2 * size + 2 }

/-- The value that a YAML text denotes; a text without a document denotes nothing. -/
def read (text : String) : Except Fault Shared := do
  match ← graphOf text with
  | none => return { root := .null }
  | some (root, graph) => valueOf root graph

end ClientGen.Yaml
