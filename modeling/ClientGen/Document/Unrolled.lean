import ClientGen.Document.Basic

/-!
# Schemas inside themselves

A schema that stands inside itself has no end, but a schema is looked at down to a fixed depth only.
It is written out here as deep as that. What stands inside a schema and is no schema stays as it is.
-/

namespace ClientGen.Document

/-- Keywords of schemas under which other schemas stand. -/
def schemaKeywords : List String :=
  ["properties", "additionalProperties", "items", "prefixItems", "allOf", "oneOf", "anyOf"]

/-- Whether other schemas stand under a key of a schema. -/
def holdsSchemas : Key → Bool
  | .str s => schemaKeywords.contains s
  | _ => false

/-- A value at a place, with the schemas in it that stand inside themselves written out, `levels`
steps deep. The value is a schema, or else the schemas are in it under names. `around` are the
values around it with their places, the innermost one first. -/
def unroll (links : Value.Links) :
    (levels : Nat) → (around : List (Value.Place × Value)) → (isSchema : Bool) → Value.Place →
      Value → Value
  | 0, _, _, _, v => v
  | levels + 1, around, isSchema, place, v =>
    let place := links.origin place
    let inside := (place, v) :: around
    match v with
    | .loop _ =>
      match around.dropWhile fun a => a.1 != place with
      | (_, w) :: outer => unroll links levels outer isSchema place w
      | [] => v
    | .map entries => .map (entries.map fun (k, w) =>
        if isSchema && !holdsSchemas k then (k, w)
        else (k, unroll links levels inside (!isSchema || k != .str "properties")
          (.entry k :: place) w))
    | .list items =>
      .list (items.mapIdx fun n w => unroll links levels inside true (.item n :: place) w)
    | v => v

/-- A document whose schemas are written out as deep as lowering looks at them, which takes up to
three steps to the next schema. -/
def unrolled (depth : Nat) (d : Document) : Document :=
  if d.links.hasLoop then
    d.mapRoots fun x => unroll d.links (3 * (depth + 2)) [] true x.place x.value
  else d

end ClientGen.Document
