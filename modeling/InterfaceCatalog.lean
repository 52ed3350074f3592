import InterfaceCatalog.Text.Case
import InterfaceCatalog.Text.Utf8
import InterfaceCatalog.Text.Qualified
import InterfaceCatalog.Text.Paragraph
import InterfaceCatalog.Text.Interner
import InterfaceCatalog.Sequence
import InterfaceCatalog.Expression.Parser
import InterfaceCatalog.Arena
import InterfaceCatalog.Source.Syntax
import InterfaceCatalog.Model.Record
import InterfaceCatalog.Files.Disk
import InterfaceCatalog.Settings.Basic
import InterfaceCatalog.Query.Inheritance
import InterfaceCatalog.Catalog.Error
import InterfaceCatalog.Query.Function
import InterfaceCatalog.Catalog.Typedecl
import InterfaceCatalog.Catalog.Build
import InterfaceCatalog.Database
import InterfaceCatalog.Query.Evaluation
import InterfaceCatalog.Query.Expression
import InterfaceCatalog.Report
import InterfaceCatalog.Datum.Basic
import InterfaceCatalog.Datum.Scan
import InterfaceCatalog.Datum.Reader
import InterfaceCatalog.Source.Word
import InterfaceCatalog.Source.Decode
import InterfaceCatalog.Source.Encode
import InterfaceCatalog.Source.Notation
import InterfaceCatalog.Text.Items
import InterfaceCatalog.Toml.Basic
import InterfaceCatalog.Toml.Scan
import InterfaceCatalog.Toml.Reader
import InterfaceCatalog.Settings.Document
import InterfaceCatalog.Session
import InterfaceCatalog.CommandLine.Arguments
import InterfaceCatalog.CommandLine.Run
import InterfaceCatalog.Expression.Leaf
import InterfaceCatalog.Main
import InterfaceCatalog.Datum.Shape
import InterfaceCatalog.Source.Schema
import InterfaceCatalog.Datum.Json
import InterfaceCatalog.Proofs.Arena
import InterfaceCatalog.Proofs.Catalog.Content
import InterfaceCatalog.Proofs.Build.Account
import InterfaceCatalog.Proofs.Catalog.Naming
import InterfaceCatalog.Proofs.Catalog.Stored
import InterfaceCatalog.Proofs.Build.Progress
import InterfaceCatalog.Proofs.Build.Extension
import InterfaceCatalog.Proofs.Build.Matching
import InterfaceCatalog.Proofs.Build.Run
import InterfaceCatalog.Proofs.Build.Rows
import InterfaceCatalog.Proofs.Build.Attempt
import InterfaceCatalog.Proofs.Build.Names
import InterfaceCatalog.Proofs.Build.Declarations
import InterfaceCatalog.Proofs.Build.Members
import InterfaceCatalog.Proofs.Build.Classes
import InterfaceCatalog.Proofs.Build.Body
import InterfaceCatalog.Proofs.Build.Growth
import InterfaceCatalog.Proofs.Build.Loading
import InterfaceCatalog.Proofs.Build.Accesses
import InterfaceCatalog.Proofs.Build.Events
import InterfaceCatalog.Proofs.Build.Undoing
import InterfaceCatalog.Proofs.Build.Family
import InterfaceCatalog.Proofs.Build.FamilyLoading
import InterfaceCatalog.Proofs.Database.Reachable
import InterfaceCatalog.Proofs.Database.Termination
import InterfaceCatalog.Proofs.Database.Accesses
import InterfaceCatalog.Proofs.Database.Atomicity
import InterfaceCatalog.Proofs.Build.Links
import InterfaceCatalog.Proofs.Build.Standing
import InterfaceCatalog.Proofs.Build.Reproduced
import InterfaceCatalog.Proofs.Arena.History
import InterfaceCatalog.Proofs.Arena.Liveness
import InterfaceCatalog.Proofs.Build.Lifetime
import InterfaceCatalog.Proofs.Build.Listing
import InterfaceCatalog.Proofs.Database.Integrity
import InterfaceCatalog.Proofs.Files.Table
import InterfaceCatalog.Proofs.Database.Namespace
import InterfaceCatalog.Proofs.Database.Permanence
import InterfaceCatalog.Proofs.Database.Family
import InterfaceCatalog.Proofs.Database.Bulk
import InterfaceCatalog.Proofs.Database.Undoing
import InterfaceCatalog.Proofs.Expression.Grammar
import InterfaceCatalog.Proofs.Expression.Parsing
import InterfaceCatalog.Proofs.Text.Character
import InterfaceCatalog.Proofs.Text.Qualified
import InterfaceCatalog.Proofs.Expression.Spelling
import InterfaceCatalog.Proofs.Expression.CText
import InterfaceCatalog.Proofs.Expression.Scanning
import InterfaceCatalog.Proofs.Expression.Numeral
import InterfaceCatalog.Proofs.Expression.Lexing
import InterfaceCatalog.Proofs.Number.Binary
import InterfaceCatalog.Proofs.Number.Range
import InterfaceCatalog.Proofs.Number.Digits
import InterfaceCatalog.Proofs.Number.Decimal
import InterfaceCatalog.Proofs.Expression.FloatText
import InterfaceCatalog.Proofs.Expression.Canonical
import InterfaceCatalog.Proofs.Expression.Respelling
import InterfaceCatalog.Proofs.Expression.NumeralParts
import InterfaceCatalog.Proofs.Number.Wide
import InterfaceCatalog.Proofs.Expression.Arithmetic
import InterfaceCatalog.Proofs.Expression.Failure
import InterfaceCatalog.Proofs.Expression.Kinds
import InterfaceCatalog.Proofs.Expression.Floating
import InterfaceCatalog.Proofs.Query.Evaluation
import InterfaceCatalog.Proofs.Query.Depth
import InterfaceCatalog.Proofs.Query.Inheritance
import InterfaceCatalog.Proofs.Query.Aliases
import InterfaceCatalog.Proofs.Query.EnumValues
import InterfaceCatalog.Proofs.Query.Kinds
import InterfaceCatalog.Proofs.Query.Expressions
import InterfaceCatalog.Proofs.Query.Masks
import InterfaceCatalog.Proofs.Query.ValueText
import InterfaceCatalog.Proofs.Query.Floating
import InterfaceCatalog.Proofs.Query.Types
import InterfaceCatalog.Proofs.Query.Units
import InterfaceCatalog.Proofs.Query.Members
import InterfaceCatalog.Proofs.Database.Reproduction
import InterfaceCatalog.Proofs.Expression.Offsets
import InterfaceCatalog.Proofs.Expression.IntegerLiterals
import InterfaceCatalog.Proofs.Query.TypeText
import InterfaceCatalog.Proofs.Build.Trail
import InterfaceCatalog.Proofs.Database.Trail
import InterfaceCatalog.Proofs.Association
import InterfaceCatalog.Proofs.Files.Listing
import InterfaceCatalog.Proofs.Files.Offers
import InterfaceCatalog.Proofs.Database.Files
import InterfaceCatalog.Proofs.Sequence
import InterfaceCatalog.Proofs.Session
import InterfaceCatalog.Proofs.Text.Paragraph
