import ClientGen.Document.Read

/-!
# Passes over a document

Before code is generated a document is checked, its references are reported on, its schemas get the
names of types, and `nullable` is turned into a member of `type`. Each pass is a function on
documents; one that fails leaves the document as it was.
-/

namespace ClientGen.Document

/-! ## Validation -/

/-- Reports the first component that is no mapping. -/
def validateSchemas : Schema.Components → Reading Unit
  | [] => pure ()
  | (name, schema) :: rest =>
    if schema.isMap then validateSchemas rest
    else Report.fail (.input (some (Schema.refPrefix ++ name)) .schemaNotMapping)

/-- Checks that a document holds what generation needs. -/
def validate (d : Document) : Reading Document := do
  if d.info.title.isEmpty then Report.fail (.input (some "info") .titleMissing)
  if d.info.version.isEmpty then Report.fail (.input (some "info") .versionMissing)
  if d.paths.isEmpty then Report.note (.noPaths d.info.title)
  validateSchemas d.schemas
  return d

/-! ## References -/

mutual

/-- The references at and below a value, outermost first. -/
def refs : Value → List String
  | .map es => (((Entries.find? "$ref" es).bind Value.str?).toList) ++ refsOfMembers es
  | .list items => refsOfItems items
  | _ => []

/-- The references in the items of a list. -/
def refsOfItems : List Value → List String
  | [] => []
  | v :: rest => refs v ++ refsOfItems rest

/-- The references in the values of a mapping. -/
def refsOfMembers : List (Key × Value) → List String
  | [] => []
  | (_, v) :: rest => refs v ++ refsOfMembers rest

end

/-- Whether a reference leaves the document. -/
def isExternal (ref : String) : Bool := !Text.startsWith "#" ref

/-- Whether a reference names a component that is not there. -/
def isDangling (d : Document) (ref : String) : Bool :=
  match Schema.componentOf? ref with
  | some name => (d.schemas.lookup name).isNone
  | none => false

/-- Fails for a document with a schema that a walk never leaves. -/
def requireFinite (d : Document) : Reading Unit :=
  if d.schemaRoots.any Value.isEndless then Report.malformed else pure ()

/-- Reports references that leave the document, and then those to missing components. -/
def reportReferences (d : Document) : Reading Document := do
  requireFinite d
  let all := d.schemaRoots.flatMap refs
  let external := (all.filter isExternal).map Warning.externalReference
  let dangling := (all.filter (isDangling d)).map Warning.unresolvedSchema
  ⟨external ++ dangling, .ok d⟩

/-! ## Names -/

/-- New names for the names of components: type names, numbered where one is taken. -/
def renamesAfter (taken : List String) : List String → List (String × String)
  | [] => []
  | name :: rest =>
    let newName := Name.distinctFrom taken (Name.typeName name)
    (name, newName) :: renamesAfter (newName :: taken) rest

/-- New names for all components of a document. -/
def renames (d : Document) : List (String × String) := renamesAfter [] (d.schemas.map (·.1))

/-- A reference with the new name of its component. -/
def renameRef (names : List (String × String)) (ref : String) : String :=
  match (Schema.componentOf? ref).bind fun name => names.lookup name with
  | some newName => Schema.refPrefix ++ newName
  | none => ref

/-- The value of a key after renaming, where the value itself is not renamed further. -/
def renameAt (names : List (String × String)) (k : Key) (v : Value) : Value :=
  match k, v with
  | .str "$ref", .str ref => .str (renameRef names ref)
  | _, v => v

mutual

/-- A value with every reference in it renamed. -/
def rename (names : List (String × String)) : Value → Value
  | .map es => .map (renameMembers names es)
  | .list items => .list (renameItems names items)
  | v => v

/-- The items of a list with every reference in them renamed. -/
def renameItems (names : List (String × String)) : List Value → List Value
  | [] => []
  | v :: rest => rename names v :: renameItems names rest

/-- The entries of a mapping with every reference in them renamed. -/
def renameMembers (names : List (String × String)) : List (Key × Value) → List (Key × Value)
  | [] => []
  | (k, v) :: rest => (k, renameAt names k (rename names v)) :: renameMembers names rest

end

/-- A warning for each name that another one had taken. -/
def renameWarnings (names : List (String × String)) : List Warning :=
  names.filterMap fun (name, newName) =>
    if newName = Name.typeName name then none else some (.renamedSchema name newName)

/-- Gives the components the names of types, all at once. -/
def normalizeNames (d : Document) : Reading Document := do
  let names := d.renames
  ⟨renameWarnings names, .ok ()⟩
  if names.all fun n => n.1 == n.2 then return d
  else
    requireFinite d
    let d := d.mapRoots fun x => rename names x.value
    return { d with components := d.components.map fun c => ((names.lookup c.1).getD c.1, c.2) }

/-! ## Nullability -/

/-- Whether a value is the text `null`. -/
def isNullWord : Value → Bool
  | .str s => s == "null"
  | _ => false

/-- A `type` that takes `null` as well. -/
def admitNull : Value → Value
  | .str s => .list [.str s, .str "null"]
  | .list items => if items.any isNullWord then .list items else .list (items ++ [.str "null"])
  | v => v

/-- A value without the lists around it that hold a single item, of which at most `n` are left
out. -/
def unwrap : (n : Nat) → Value → Value
  | n + 1, .list [v] => unwrap n v
  | _, v => v

/-- A `type` without the lists around a single item. A schema that stands in several places loses as
many of them as there are places. -/
def unwrapType (times : Value.Place → Nat) (place : Value.Place) : Value → Value
  | .list [.list [v]] => unwrap (times place) (.list [.list [v]])
  | v => unwrap 1 v

/-- Changes the value of a name, if it is there. -/
def updateEntry (name : String) (f : Value → Value) (es : Entries) : Entries :=
  es.map fun e => if e.1 = .str name then (e.1, f e.2) else e

/-- A schema whose `nullable` has become a member of its `type`. Schemas without a `type` keep
it. -/
def normalizeEntries (times : Value.Place → Nat) (place : Value.Place) (es : Entries) : Entries :=
  if (es.get "nullable").isTrue && es.has "type" then
    updateEntry "type" (fun v => unwrapType times place (admitNull v)) (es.erase "nullable")
  else updateEntry "type" (unwrapType times place) es

mutual

/-- A value at a place with every mapping in it normalised. `times` tells of a place in how many
places that stands which stands there. -/
def normalize (times : Value.Place → Nat) : Value → Value.Place → Value
  | .map es, place => .map (normalizeEntries times place (normalizeMembers times es place))
  | .list items, place => .list (normalizeItems times items 0 place)
  | v, _ => v

/-- The items of a list from the one with an index on, normalised. -/
def normalizeItems (times : Value.Place → Nat) :
    List Value → (index : Nat) → Value.Place → List Value
  | [], _, _ => []
  | v :: rest, index, place =>
    normalize times v (.item index :: place) :: normalizeItems times rest (index + 1) place

/-- The values of a mapping, normalised. -/
def normalizeMembers (times : Value.Place → Nat) :
    List (Key × Value) → Value.Place → List (Key × Value)
  | [], _ => []
  | (k, v) :: rest, place =>
    (k, normalize times v (.entry k :: place)) :: normalizeMembers times rest place

end

mutual

/-- The number of places, in a value at a place, where that stands which stands first at
`target`. -/
def visits (links : Value.Links) (target : Value.Place) : Value → Value.Place → Nat
  | .map es, place =>
    (if links.origin place = target then 1 else 0) + visitsOfMembers links target es place
  | .list items, place => visitsOfItems links target items 0 place
  | _, _ => 0

/-- The number of places in the items of a list, from the one with an index on. -/
def visitsOfItems (links : Value.Links) (target : Value.Place) :
    List Value → (index : Nat) → Value.Place → Nat
  | [], _, _ => 0
  | v :: rest, index, place =>
    visits links target v (.item index :: place)
      + visitsOfItems links target rest (index + 1) place

/-- The number of places in the values of a mapping. -/
def visitsOfMembers (links : Value.Links) (target : Value.Place) :
    List (Key × Value) → Value.Place → Nat
  | [], _ => 0
  | (k, v) :: rest, place =>
    visits links target v (.entry k :: place) + visitsOfMembers links target rest place

end

/-- The number of places in the schemas of a document where that stands which stands at a place. -/
def timesAt (d : Document) (place : Value.Place) : Nat :=
  let target := d.links.origin place
  d.rootSpots.foldl (fun n x => n + visits d.links target x.value x.place) 0

/-- Normalises every schema of a document. -/
def normalizeSchemas (d : Document) : Reading Document := do
  requireFinite d
  return d.mapRoots fun x => normalize d.timesAt x.value x.place

/-! ## Passes -/

/-- A pass over a document. -/
inductive Pass where
  | validation
  | references
  | names
  | schemas
deriving DecidableEq, Repr

/-- The word for a pass. -/
def Pass.label : Pass → String
  | validation => "validation"
  | references => "reference-resolution"
  | names => "naming-convention"
  | schemas => "schema-normalization"

/-- All passes, in the order in which they are applied before code is generated. -/
def Pass.all : List Pass := [validation, references, names, schemas]

/-- The document after a pass. -/
def Pass.apply : Pass → Document → Reading Document
  | validation => validate
  | references => reportReferences
  | names => normalizeNames
  | schemas => normalizeSchemas

/-- The document after passes in turn. -/
def applyPasses : List Pass → Document → Reading Document
  | [], d => pure d
  | p :: rest, d => do applyPasses rest (← p.apply d)

/-- The document as code is generated from it. -/
def prepare (d : Document) : Reading Document := applyPasses Pass.all d

end ClientGen.Document
