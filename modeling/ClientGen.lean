import ClientGen.Cli.Flag
import ClientGen.Cli.Options
import ClientGen.Cli.Run
import ClientGen.Client.ApiClass
import ClientGen.Client.Class
import ClientGen.Client.Parameters
import ClientGen.Client.Request
import ClientGen.Config
import ClientGen.Crate.Files
import ClientGen.Crate.Model
import ClientGen.Crate.Type
import ClientGen.Decimal.Reader
import ClientGen.Decimal.Shortest
import ClientGen.Decl.Basic
import ClientGen.Decl.Layout
import ClientGen.Document.Basic
import ClientGen.Document.Copy
import ClientGen.Document.Passes
import ClientGen.Document.Read
import ClientGen.Document.Source
import ClientGen.Document.Unrolled
import ClientGen.Files.Disk
import ClientGen.Files.Fault
import ClientGen.Files.Output
import ClientGen.Files.Path
import ClientGen.Files.Tree
import ClientGen.Files.Utf8
import ClientGen.Generator.Run
import ClientGen.Json.Literal
import ClientGen.Json.Reader
import ClientGen.Json.Writer
import ClientGen.Layout.Margin
import ClientGen.Layout.Render
import ClientGen.Main
import ClientGen.Name.Identifier
import ClientGen.Name.Words
import ClientGen.Package.Manifest
import ClientGen.Package.RuntimeModule
import ClientGen.Package.TypeScript
import ClientGen.Report.Basic
import ClientGen.Report.Failure
import ClientGen.Schema.Basic
import ClientGen.Schema.Declare
import ClientGen.Schema.Lowering
import ClientGen.Schema.Mapper
import ClientGen.Schema.Session
import ClientGen.Source.Comment
import ClientGen.Source.Literal
import ClientGen.Source.Version
import ClientGen.Template.Context
import ClientGen.Template.Filter
import ClientGen.Template.Render
import ClientGen.Text.Blank
import ClientGen.Text.Case
import ClientGen.Text.CodePoint
import ClientGen.Text.Digit
import ClientGen.Text.Integer
import ClientGen.Text.Printable
import ClientGen.TypeExpr.Basic
import ClientGen.TypeExpr.Layout
import ClientGen.TypeExpr.Normal
import ClientGen.TypeExpr.Order
import ClientGen.Value.Basic
import ClientGen.Value.Display
import ClientGen.Value.SetOrder
import ClientGen.Value.Shared
import ClientGen.Value.Timestamp
import ClientGen.Yaml.Cursor
import ClientGen.Yaml.Document
import ClientGen.Yaml.Fault
import ClientGen.Yaml.Lexer
import ClientGen.Yaml.Meaning
import ClientGen.Yaml.Node
import ClientGen.Yaml.Reader
import ClientGen.Yaml.Scalar
import ClientGen.Yaml.Timestamp
import ClientGen.Yaml.Token
import ClientGen.Proofs.Text.Order
import ClientGen.Proofs.TypeExpr.SortKey
import ClientGen.Proofs.TypeExpr.Normal
import ClientGen.Proofs.Report.Matching
import ClientGen.Proofs.Schema.Parts
import ClientGen.Proofs.Schema.Rearranged
import ClientGen.Proofs.Document.Normalized
import ClientGen.Proofs.Document.Nullability
import ClientGen.Proofs.Schema.Null
import ClientGen.Proofs.Document.Renaming
import ClientGen.Proofs.Schema.Invariant
import ClientGen.Proofs.Schema.NormalForm
import ClientGen.Proofs.Schema.References
import ClientGen.Proofs.Layout.Extent
import ClientGen.Proofs.Layout.Page
import ClientGen.Proofs.Layout.Steps
import ClientGen.Proofs.Layout.Fit
import ClientGen.Proofs.Decl.Width
import ClientGen.Proofs.Name.Key
import ClientGen.Proofs.TypeExpr.Printed
import ClientGen.Proofs.TypeExpr.Plain
import ClientGen.Proofs.TypeExpr.Reader
import ClientGen.Proofs.TypeExpr.Unambiguous
import ClientGen.Proofs.Text.Capital
import ClientGen.Proofs.Text.Lines
import ClientGen.Proofs.Client.Methods
import ClientGen.Proofs.Client.Transmission
import ClientGen.Proofs.Name.Spelling
import ClientGen.Proofs.Package.Files
import ClientGen.Proofs.Package.Closed
import ClientGen.Proofs.Package.Runtime
import ClientGen.Proofs.Package.Exports
import ClientGen.Proofs.Package.Imports
import ClientGen.Proofs.Name.Camel
import ClientGen.Proofs.Client.LocalNames
import ClientGen.Proofs.Client.MethodNames
import ClientGen.Proofs.Package.Members
import ClientGen.Proofs.Schema.Chain
import ClientGen.Proofs.Schema.DeclaredNull
import ClientGen.Proofs.Name.Pascal
import ClientGen.Proofs.Document.Prepared
import ClientGen.Proofs.Schema.Following
import ClientGen.Proofs.Value.Json
import ClientGen.Proofs.Schema.Returns
import ClientGen.Proofs.Schema.Declarable
import ClientGen.Proofs.Schema.Balanced
import ClientGen.Proofs.Files.Tree
import ClientGen.Proofs.Files.Places
import ClientGen.Proofs.Files.Written
import ClientGen.Proofs.Files.Restored
import ClientGen.Proofs.Cli.Restoring
import ClientGen.Proofs.Name.FileName
import ClientGen.Proofs.Generator.ModelFiles
import ClientGen.Proofs.Package.Reordered
import ClientGen.Proofs.Generator.Backends
import ClientGen.Proofs.Generator.Written
import ClientGen.Proofs.Value.Keys
import ClientGen.Proofs.Value.Shown
import ClientGen.Proofs.Crate.Types
import ClientGen.Proofs.Crate.Normalized
import ClientGen.Proofs.Crate.Nullable
import ClientGen.Proofs.Crate.Held
import ClientGen.Proofs.Document.Unplaced
import ClientGen.Proofs.Document.Alike
import ClientGen.Proofs.Document.Inlined
import ClientGen.Proofs.Document.Pointers
import ClientGen.Proofs.Crate.FieldNames
import ClientGen.Proofs.Crate.Identifiers
import ClientGen.Proofs.Crate.References
import ClientGen.Proofs.Source.Literals
import ClientGen.Proofs.Source.Placeholders
import ClientGen.Proofs.Source.PathTemplate
import ClientGen.Proofs.Source.Banner
import ClientGen.Proofs.Json.Literal
import ClientGen.Proofs.Name.PropertyKey
import ClientGen.Proofs.Source.Comments
import ClientGen.Proofs.Client.MediaTypes
import ClientGen.Proofs.TypeExpr.Canonical
import ClientGen.Proofs.Schema.Agreement
import ClientGen.Proofs.Schema.DepthLimit
import ClientGen.Proofs.Schema.Interfaces
import ClientGen.Proofs.Schema.InterfaceMembers
import ClientGen.Proofs.Name.Plain
import ClientGen.Proofs.Schema.Enumerations
import ClientGen.Proofs.Generator.Variants
import ClientGen.Proofs.Schema.Notes
import ClientGen.Proofs.Client.Extraction
import ClientGen.Proofs.Document.Operations
import ClientGen.Proofs.Document.Merging
import ClientGen.Proofs.Document.Merged
import ClientGen.Proofs.Client.GivenNames
import ClientGen.Proofs.Client.Grouping
import ClientGen.Proofs.Client.Built
import ClientGen.Proofs.Layout.Added
import ClientGen.Proofs.Decl.Parameters
import ClientGen.Proofs.Source.Version
import ClientGen.Proofs.Layout.Trailing
import ClientGen.Proofs.Document.Data
import ClientGen.Proofs.Document.Settled
import ClientGen.Proofs.Document.Kept
import ClientGen.Proofs.Schema.Unresolved
import ClientGen.Proofs.Document.Overlooked
import ClientGen.Proofs.Name.Snake
