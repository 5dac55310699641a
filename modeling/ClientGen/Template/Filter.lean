import ClientGen.Client.Request
import ClientGen.Crate.Type
import ClientGen.Document.Source
import ClientGen.Schema.Basic
import ClientGen.Source.Comment
import ClientGen.Source.Literal
import ClientGen.Source.Version

/-!
# Filters

Functions that templates call by name, with values as arguments. The last arguments of a filter may
have values for where they are left out. An argument that a filter cannot use is a failure, but only
if the filter comes to use it.
-/

namespace ClientGen.Template

/-- A step that may fail. -/
abbrev Filtering := Except Failure

/-- Ends in a failure where a value is used that cannot stand there. -/
def unusable {α : Type} : Filtering α := .error .malformed

/-! ## Arguments -/

/-- A value that has to be text. -/
def textOf : Value → Filtering String
  | .str s => .ok s
  | _ => unusable

/-- Text, where a value that counts as absent is empty. -/
def textOrEmpty (v : Value) : Filtering String := if v.truthy then textOf v else .ok ""

/-- The text of any value. -/
def shownText (v : Value) : Filtering String := v.shown.mapError .textless

/-- A value that has to be a mapping. -/
def entriesOf : Value → Filtering Entries
  | .map es => .ok es
  | _ => unusable

/-- The most spaces that can be asked for. -/
def mostSpaces : Int := 1000000000

/-- A number of spaces. A negative one counts as none, and a truth value as one or none. -/
def spacesOf : Value → Filtering Nat
  | .bool b => .ok (if b then 1 else 0)
  | .int n => if n ≤ mostSpaces then .ok n.toNat else unusable
  | _ => unusable

/-- The style of comments that a word names; any other scalar names the usual one. -/
def styleOf : Value → Filtering Source.CommentStyle
  | .str "toml" => .ok .hash
  | .str "markdown" => .ok .markup
  | v => if v.toKey?.isSome then .ok .slashes else unusable

/-- The wire name of a parameter and its identifier, if the wire name is text. -/
def identifierOf (v : Value) : Filtering (Option (String × String)) := do
  let es ← entriesOf v
  match es.find? "original_name", es.find? "name" with
  | some wireName, some identifier =>
    match wireName with
    | .str s => return some (s, ← shownText identifier)
    | other => if other.toKey?.isSome then return none else unusable
  | _, _ => unusable

/-! ## The filters -/

/-- A filter: how many arguments it needs, the values of those that may be left out, and what it
makes of all of them. -/
structure Filter where
  needed : Nat
  usual : List Value := []
  run : List Value → Filtering Value

/-- The result of a filter for arguments. -/
def Filter.apply (f : Filter) (arguments : List Value) : Filtering Value :=
  let missing := f.needed + f.usual.length - arguments.length
  if arguments.length < f.needed ∨ f.needed + f.usual.length < arguments.length then unusable
  else f.run (arguments ++ f.usual.drop (f.usual.length - missing))

/-- A filter of one argument. -/
def ofOne (run : Value → Filtering Value) : Filter where
  needed := 1
  run
    | [v] => run v
    | _ => unusable

/-- A filter from text to text. -/
def ofText (run : String → String) : Filter := ofOne fun v => do return .str (run (← textOf v))

/-- A filter from any value to text, if it has one. -/
def ofValue (run : Value → Except Textless String) : Filter :=
  ofOne fun v => .str <$> (run v).mapError .textless

/-- A filter from text to text that is indented by a number of spaces. Text that `isAbsent` gives
none. -/
def ofDocumentation (isAbsent : String → Bool) (run : String → Nat → String) : Filter where
  needed := 1
  usual := [.int 0]
  run
    | [text, width] => do
      let text ← textOrEmpty text
      if isAbsent text then return .str ""
      return .str (run text (← spacesOf width))
    | _ => unusable

/-- Text as a value, or `null`. -/
def optionalValue (s : Option String) : Value := (s.map Value.str).getD .null

/-- The filters by their names. -/
def filters : List (String × Filter) := [
  ("indent", {
    needed := 1, usual := [.int 2, .bool true]
    run
      | [text, width, first] => do
        if !text.truthy then return .str ""
        return .str (Source.indentLines (← textOf text) (← spacesOf width) first.truthy)
      | _ => unusable }),
  ("ts_string_literal", ofText Source.singleQuoted),
  ("rust_string_literal", ofText Source.doubleQuoted),
  ("json_value", ofValue (Json.write false)),
  ("ensure_semver", ofOne fun v => do return .str (Source.packageVersion (← textOrEmpty v))),
  ("rust_doc_comment", ofDocumentation String.isEmpty Source.lineComments),
  ("format_doc_comment", ofDocumentation Text.allBlank Source.blockComment),
  ("file_header", {
    needed := 0, usual := [.null, .null, .str "ts"]
    run
      | [title, version, style] => do
        let shown (v : Value) : Filtering String := if v.truthy then shownText v else .ok ""
        return .str (Source.banner (← shown title) (← shown version) (← styleOf style))
      | _ => unusable }),
  ("path_template_names", ofOne fun v => do
    return .list ((Source.placeholderNames (← textOf v)).map .str)),
  ("path_template_literal", {
    needed := 2
    run
      | [path, parameters] => do
        let items ← (parameters.listed?.map .ok).getD unusable
        let identifiers ← items.mapM identifierOf
        return .str (Source.pathTemplate (← textOf path) (identifiers.filterMap id))
      | _ => unusable }),
  ("schema_ref_name", ofOne fun v => do
    return optionalValue (Schema.componentOf? (← textOf v))),
  ("literal_text", ofValue Schema.literalText),
  ("enum_value_text", ofValue Schema.enumValueText),
  ("ts_enum_variant_name", ofValue fun v => Name.memberName <$> Name.memberText v),
  ("schema_documentation", ofOne fun v => do
    return optionalValue (Schema.documentation (← entriesOf v))),
  ("is_object_schema", ofOne fun v => do
    .bool <$> (Schema.isObject (← entriesOf v)).mapError .textless),
  ("select_method_template", ofText fun s => (Client.BodyTemplate.ofVerb s).label),
  ("rust_optional", ofText Crate.optionalText),
  ("detect_format", {
    needed := 2
    run
      | [path, text] => do
        let path := Path.ofString (← textOf path)
        match Document.formatOfPath? path with
        | some format => return .str format.label
        | none => return .str (Document.formatOfText (← textOf text)).label
      | _ => unusable })]

/-- The result of the filter of a name for arguments. -/
def filtered (name : String) (arguments : List Value) : Filtering Value :=
  match filters.lookup name with
  | some f => f.apply arguments
  | none => unusable

end ClientGen.Template
