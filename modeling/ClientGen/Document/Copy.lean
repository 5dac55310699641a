import ClientGen.Document.Basic
import ClientGen.Value.SetOrder

/-!
# Copies of documents

The files of every language are made of a copy of the document, so that no language sees what the
passes of another one changed. A copy says what the document says: only sets may change their
order, and values that nest too deep cannot be copied.
-/

namespace ClientGen

namespace Value

mutual

/-- The copy of a value. -/
def copied : Value → Value
  | list items => list (copiedItems items)
  | map entries => map (copiedEntries entries)
  | pair a b => pair (copied a) (copied b)
  | set members => set (SetOrder.copied members)
  | v => v

/-- The copies of items. -/
def copiedItems : List Value → List Value
  | [] => []
  | v :: rest => copied v :: copiedItems rest

/-- The copies of entries. -/
def copiedEntries : List (Key × Value) → List (Key × Value)
  | [] => []
  | (k, v) :: rest => (k, copied v) :: copiedEntries rest

end

end Value

/-- The values that describe an operation, apart from its schemas. -/
def Operation.values (o : Operation) : List Value :=
  [o.operationId, o.summary, o.description] ++ o.security.getD []
    ++ o.parameters.map (·.description) ++ (o.body.map (·.description)).toList
    ++ o.responses.map (·.2.description)

/-- The copy of an operation whose schemas are copied. -/
def Operation.copied (o : Operation) : Operation :=
  { o with
    operationId := o.operationId.copied
    summary := o.summary.copied
    description := o.description.copied
    parameters := o.parameters.map fun p => { p with description := p.description.copied }
    body := o.body.map fun b => { b with description := b.description.copied }
    responses := o.responses.map fun r =>
      (r.1, { r.2 with description := r.2.description.copied })
    security := o.security.map Value.copiedItems }

namespace Document

/-- All values in a document. -/
def values (d : Document) : List Value :=
  d.info.description :: d.servers.map (·.description) ++ d.schemaRoots
    ++ d.securitySchemes.map (·.2) ++ d.security ++ d.operations.flatMap Operation.values

/-- How deep the values of a document may nest for it to be copied. -/
def deepestCopied : Nat := 490

/-- The copy of a document, if it has one. -/
def copy? (d : Document) : Option Document :=
  if d.values.all fun v => v.depth ≤ deepestCopied then
    let d := d.mapRoots fun x => x.value.copied
    some { d with
      info := { d.info with description := d.info.description.copied }
      servers := d.servers.map fun s => { s with description := s.description.copied }
      paths := d.paths.map fun p =>
        (p.1, { p.2 with operations := p.2.operations.map fun o => (o.1, o.2.copied) })
      securitySchemes := Value.copiedEntries d.securitySchemes
      security := Value.copiedItems d.security }
  else none

end Document

end ClientGen
