import ClientGen.Yaml.Lexer
import ClientGen.Yaml.Node

/-!
# From tokens to nodes

The grammar of YAML over tokens. An alias stands for the node of its anchor, which may be one that
is still being read, and every name may be anchored once. A text holds one document at most. Tokens
are read when they are asked for, so that of two faults the one that comes first in the text counts.
`fuel` bounds the depth of the grammar's rules by the length of the text.
-/

namespace ClientGen.Yaml

/-- How far a text was read, and what was found in it. -/
structure Progress where
  lexer : Lexer
  /-- A bound for the number of tokens that are left. -/
  bound : Nat
  /-- The number of tokens that were passed. -/
  taken : Nat := 0
  /-- What the handles of tags stand for. -/
  handles : List (String × String)
  /-- The numbers of the anchored nodes. -/
  anchors : List (String × Nat) := []
  /-- The number of the collections around this place. -/
  level : Nat := 0
  /-- The nodes so far. One that is still being read is empty. -/
  nodes : Graph := #[]

/-- A rule of the grammar. -/
abbrev Rule := StateT Progress (Except Fault)

namespace Rule

/-- Refuses the text. -/
def broken {α : Type} : Rule α := throw .broken

/-- The next token; at the end of the text there is none. -/
def peek : Rule (Option Token) := fun p => do
  let lexer ← p.lexer.settle p.taken p.bound
  return (lexer.tokens[p.taken]?, { p with lexer })

/-- Passes the next token. -/
def advance : Rule Unit := modify fun p => { p with taken := p.taken + 1 }

/-- Passes the next token, which has to be the given one. -/
def expect (t : Token) : Rule Unit := do
  if (← peek) = some t then advance else broken

/-- Passes the next token if it is the given one, and says whether it was. -/
def accept (t : Token) : Rule Bool := do
  if (← peek) = some t then
    advance
    return true
  else return false

/-- Whether the next token is one of those given. -/
def isAt (ts : List Token) : Rule Bool := do return (← peek).any ts.contains

/-! ## Properties of nodes -/

/-- The anchor that stands here, if one does. -/
def anchor? : Rule (Option String) := do
  match ← peek with
  | some (.anchor name) => advance *> return some name
  | _ => return none

/-- The tag that stands here, if one does: its handle and the rest of it. -/
def tag? : Rule (Option (Option String × String)) := do
  match ← peek with
  | some (.tag handle suffix) => advance *> return some (handle, suffix)
  | _ => return none

/-- The name of a tag, with its handle replaced. -/
def tagName (tag : Option (Option String × String)) : Rule (Option String) := do
  match tag with
  | none => return none
  | some (none, suffix) => return some suffix
  | some (some handle, suffix) =>
    match (← get).handles.lookup handle with
    | some meaning => return some (meaning ++ suffix)
    | none => broken

/-- Anchor and tag of a node, in either order. -/
def properties : Rule (Option String × Option String) := do
  match ← anchor? with
  | some anchor => return (some anchor, ← tagName (← tag?))
  | none =>
    match ← tag? with
    | some tag =>
      let anchor ← anchor?
      return (anchor, ← tagName (some tag))
    | none => return (none, none)

/-- The tag of a scalar. The tag `!` leaves the choice to the text, as no tag does in a plain
scalar. -/
def scalarTag (tag : Option String) (text : String) (isPlain : Bool) : Tag :=
  match tag with
  | none => if isPlain then plainTag text else .str
  | some "!" => plainTag text
  | some name => .ofName name

/-- The tag of a collection. -/
def collectionTag (tag : Option String) (usual : Tag) : Tag :=
  match tag with
  | none => usual
  | some "!" => usual
  | some name => .ofName name

/-! ## The graph -/

/-- Adds a node and gives its number. -/
def add (n : Node) : Rule Nat := fun p => .ok (p.nodes.size, { p with nodes := p.nodes.push n })

/-- Adds a node with an anchor, if it has one. -/
def addAnchored (anchor : Option String) (n : Node) : Rule Nat := do
  match anchor with
  | none => add n
  | some name =>
    if ((← get).anchors.lookup name).isSome then broken
    let number ← add n
    modify fun p => { p with anchors := (name, number) :: p.anchors }
    return number

/-- Fills a node that was added before. -/
def fill (number : Nat) (content : Content) : Rule Unit :=
  modify fun p => { p with nodes := p.nodes.modify number fun n => { n with content } }

/-- The node of an anchor. -/
def aliased (name : String) : Rule Nat := do
  match (← get).anchors.lookup name with
  | some number => return number
  | none => broken

/-- A scalar that is not written. -/
def emptyScalar : Rule Nat := add ⟨.null, .scalar ""⟩

/-! ## Nodes -/

/-- How deep nodes may nest. -/
def deepest : Nat := 485

/-- A rule for what stands in one collection more. -/
def within {α : Type} (rule : Rule α) : Rule α := do
  modify fun p => { p with level := p.level + 1 }
  let a ← rule
  modify fun p => { p with level := p.level - 1 }
  return a

mutual

/-- A node. Block collections are allowed if `block` holds, and a
sequence of the same indentation as the mapping around it if `indentless` holds. -/
def node (block indentless : Bool) : (fuel : Nat) → Rule Nat
  | 0 => broken
  | fuel + 1 => do
    if deepest ≤ (← get).level then throw .unusable
    match ← peek with
    | some (.aliasOf name) => advance *> aliased name
    | _ =>
      let (anchor, tag) ← properties
      let empty : Rule Nat :=
        if anchor.isSome || tag.isSome then
          addAnchored anchor ⟨scalarTag tag "" true, .scalar ""⟩
        else broken
      let collection (usual : Tag) (begin : Rule Unit) (content : Rule Content) : Rule Nat := do
        let number ← addAnchored anchor ⟨collectionTag tag usual, .sequence []⟩
        begin
        fill number (← content)
        return number
      let sequence (begin : Rule Unit) (items : Rule (List Nat)) : Rule Nat :=
        collection .sequence begin (.sequence <$> within items)
      let mapping (entries : Rule (List (Nat × Nat))) : Rule Nat :=
        collection .mapping advance (.mapping <$> within entries)
      match ← peek with
      | some (.scalar text isPlain) =>
        advance *> addAnchored anchor ⟨scalarTag tag text isPlain, .scalar text⟩
      | some .flowSequenceStart => sequence advance (flowItems fuel true)
      | some .flowMappingStart => mapping (flowEntries fuel true)
      | some .blockEntry =>
        if indentless then sequence (pure ()) (indentlessItems fuel) else empty
      | some .blockSequenceStart =>
        if block then sequence advance (blockItems fuel) else empty
      | some .blockMappingStart =>
        if block then mapping (blockEntries fuel) else empty
      | _ => empty

/-- A node, unless one of the given tokens shows that it is not written. -/
def nodeUnless (ends : List Token) (block indentless : Bool) : (fuel : Nat) → Rule Nat
  | 0 => broken
  | fuel + 1 => do
    if ← isAt ends then emptyScalar else node block indentless fuel

/-- The items of a block sequence. -/
def blockItems : (fuel : Nat) → Rule (List Nat)
  | 0 => broken
  | fuel + 1 => do
    if ← accept .blockEntry then
      let item ← nodeUnless [.blockEntry, .blockEnd] true false fuel
      return item :: (← blockItems fuel)
    else
      expect .blockEnd
      return []

/-- The items of a block sequence that is not indented. -/
def indentlessItems : (fuel : Nat) → Rule (List Nat)
  | 0 => broken
  | fuel + 1 => do
    if ← accept .blockEntry then
      let item ← nodeUnless [.blockEntry, .key, .value, .blockEnd] true false fuel
      return item :: (← indentlessItems fuel)
    else return []

/-- The entries of a block mapping. -/
def blockEntries : (fuel : Nat) → Rule (List (Nat × Nat))
  | 0 => broken
  | fuel + 1 => do
    if ← accept .key then
      let key ← nodeUnless [.key, .value, .blockEnd] true true fuel
      let value ← blockValue fuel
      return (key, value) :: (← blockEntries fuel)
    else
      expect .blockEnd
      return []

/-- The value of an entry of a block mapping. -/
def blockValue : (fuel : Nat) → Rule Nat
  | 0 => broken
  | fuel + 1 => do
    if ← accept .value then nodeUnless [.key, .value, .blockEnd] true true fuel
    else emptyScalar

/-- The value of an entry in a flow collection that the given token ends. -/
def flowValue (close : Token) : (fuel : Nat) → Rule Nat
  | 0 => broken
  | fuel + 1 => do
    if ← accept .value then nodeUnless [.flowEntry, close] false false fuel
    else emptyScalar

/-- The items of a flow sequence. A marked key makes a mapping of one entry. -/
def flowItems : (fuel : Nat) → (isFirst : Bool) → Rule (List Nat)
  | 0, _ => broken
  | fuel + 1, isFirst => do
    if ← accept .flowSequenceEnd then return []
    if !isFirst then expect .flowEntry
    if ← accept .key then
      let key ← within (nodeUnless [.value, .flowEntry, .flowSequenceEnd] false false fuel)
      let value ← within (flowValue .flowSequenceEnd fuel)
      let item ← add ⟨.mapping, .mapping [(key, value)]⟩
      return item :: (← flowItems fuel false)
    else if ← accept .flowSequenceEnd then return []
    else
      let item ← node false false fuel
      return item :: (← flowItems fuel false)

/-- The entries of a flow mapping. A node that is not marked as a key has no value. -/
def flowEntries : (fuel : Nat) → (isFirst : Bool) → Rule (List (Nat × Nat))
  | 0, _ => broken
  | fuel + 1, isFirst => do
    if ← accept .flowMappingEnd then return []
    if !isFirst then expect .flowEntry
    if ← accept .key then
      let key ← nodeUnless [.value, .flowEntry, .flowMappingEnd] false false fuel
      let value ← flowValue .flowMappingEnd fuel
      return (key, value) :: (← flowEntries fuel false)
    else if ← accept .flowMappingEnd then return []
    else
      let key ← node false false fuel
      let value ← emptyScalar
      return (key, value) :: (← flowEntries fuel false)

end

/-! ## Documents -/

/-- The handles that need no directive. -/
def usualHandles : List (String × String) := [("!", "!"), ("!!", commonTags)]

/-- Passes directives. `versioned` tells whether there was one for the version. Gives the handles
that they define. -/
def directives : (fuel : Nat) → (versioned : Bool) → (handles : List (String × String)) →
    Rule (List (String × String))
  | 0, _, _ => broken
  | fuel + 1, versioned, handles => do
    match ← peek with
    | some (.directive (.version major _)) =>
      advance
      if versioned || major != 1 then broken
      directives fuel true handles
    | some (.directive (.tagHandle handle meaning)) =>
      advance
      if (handles.lookup handle).isSome then broken
      directives fuel versioned ((handle, meaning) :: handles)
    | some (.directive .unknown) =>
      advance
      directives fuel versioned handles
    | _ => return handles

/-- Passes directives and the mark that begins a document. -/
def header (fuel : Nat) : Rule Unit := do
  let handles ← directives fuel false []
  modify fun p => { p with handles := handles ++ usualHandles }
  expect .documentStart

/-- Whether a document without a node ends here. -/
def isAtDocumentEnd : Rule Bool := do
  match ← peek with
  | none => return true
  | some .documentStart => return true
  | some .documentEnd => return true
  | some (.directive _) => return true
  | _ => return false

/-- Whether a document begins here that is marked as one. -/
def isAtDocumentStart : Rule Bool := do
  match ← peek with
  | some .documentStart => return true
  | some (.directive _) => return true
  | _ => return false

/-- The node of the document, if there is one. -/
def document (fuel : Nat) : Rule (Option Nat) := do
  if (← peek).isNone then return none
  if ← isAtDocumentStart then
    header fuel
    if ← isAtDocumentEnd then some <$> emptyScalar else some <$> node true false fuel
  else some <$> node true false fuel

/-- Passes the marks that end a document. No other document may follow. -/
def finish : (fuel : Nat) → Rule Unit
  | 0 => broken
  | fuel + 1 => do
    match ← peek with
    | none => return
    | some .documentEnd => advance *> finish fuel
    | some _ => header fuel *> broken

end Rule

/-- The nodes of the document that a text holds, if it holds one, and the number of the outermost
one. -/
def graphOf (text : String) : Except Fault (Option (Nat × Graph)) := do
  let lexer ← Lexer.ofText text
  let bound := 6 * lexer.cursor.left + 16
  let rule : Rule (Option Nat) := do
    let root ← Rule.document bound
    Rule.finish bound
    return root
  let (root, progress) ← rule.run { lexer, bound, handles := Rule.usualHandles }
  return root.map fun number => (number, progress.nodes)

end ClientGen.Yaml
