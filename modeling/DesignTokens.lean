import DesignTokens.Collection
import DesignTokens.CommandLine.Arguments
import DesignTokens.CommandLine.Report
import DesignTokens.Config.Basic
import DesignTokens.Config.Yaml
import DesignTokens.Decimal.Digits
import DesignTokens.Decimal.Nearest
import DesignTokens.Decimal.Numeral
import DesignTokens.Decimal.Power
import DesignTokens.Decimal.Shortest
import DesignTokens.Emission.Audit
import DesignTokens.Emission.Basic
import DesignTokens.Emission.Leaf
import DesignTokens.Emission.Warning
import DesignTokens.Files.Basic
import DesignTokens.Files.Tree
import DesignTokens.Json.Basic
import DesignTokens.Json.Document
import DesignTokens.Json.Printer
import DesignTokens.Json.Quoted
import DesignTokens.Json.Reader
import DesignTokens.Json.Token
import DesignTokens.Literal.Basic
import DesignTokens.Literal.ValueText
import DesignTokens.Main
import DesignTokens.Namer
import DesignTokens.Path.Basic
import DesignTokens.Proofs.Emission.Accounts
import DesignTokens.Proofs.Emission.Agreement
import DesignTokens.Proofs.Emission.Audit
import DesignTokens.Proofs.Emission.DocumentOrder
import DesignTokens.Proofs.Emission.Layering
import DesignTokens.Proofs.Emission.Ledger
import DesignTokens.Proofs.Emission.Limit
import DesignTokens.Proofs.Emission.Locality
import DesignTokens.Proofs.Emission.Lockstep
import DesignTokens.Proofs.Emission.Malformed
import DesignTokens.Proofs.Emission.Metadata
import DesignTokens.Proofs.Emission.Renaming
import DesignTokens.Proofs.Emission.Reordering
import DesignTokens.Proofs.Emission.Report
import DesignTokens.Proofs.Emission.Walk
import DesignTokens.Proofs.Files.Path
import DesignTokens.Proofs.Files.Rewriting
import DesignTokens.Proofs.Files.Tree
import DesignTokens.Proofs.Json.Metadata
import DesignTokens.Proofs.Json.Reordering
import DesignTokens.Proofs.Json.RoundTrip
import DesignTokens.Proofs.Naming
import DesignTokens.Proofs.Naming.Collision
import DesignTokens.Proofs.Reference.Addressing
import DesignTokens.Proofs.Reference.Alias
import DesignTokens.Proofs.Reference.Chain
import DesignTokens.Proofs.Reference.Hop
import DesignTokens.Proofs.Reference.Limit
import DesignTokens.Proofs.Reference.Lookup
import DesignTokens.Proofs.Reference.Loop
import DesignTokens.Proofs.Reference.Notation
import DesignTokens.Proofs.Reference.Outcome
import DesignTokens.Proofs.Reference.Reordering
import DesignTokens.Proofs.Reference.Revisit
import DesignTokens.Proofs.Reference.Syntax
import DesignTokens.Proofs.Rendering.Catalogue
import DesignTokens.Proofs.Rendering.Comments
import DesignTokens.Proofs.Rendering.Stylesheet
import DesignTokens.Proofs.Run.Build
import DesignTokens.Proofs.Run.Repetition
import DesignTokens.Proofs.Store.Edit
import DesignTokens.Proofs.Store.Locations
import DesignTokens.Proofs.Store.Reach
import DesignTokens.Record.Basic
import DesignTokens.Record.Deprecation
import DesignTokens.Record.TokenType
import DesignTokens.Reference.Basic
import DesignTokens.Reference.Resolution
import DesignTokens.Reference.Scope
import DesignTokens.Rendering.Basic
import DesignTokens.Rendering.Catalogue
import DesignTokens.Rendering.OutputFormat
import DesignTokens.Rendering.Stylesheet
import DesignTokens.Run.Basic
import DesignTokens.Store.Basic
import DesignTokens.Store.Path
import DesignTokens.Store.Source
import DesignTokens.Text.Blank
import DesignTokens.Text.Case
import DesignTokens.Text.Split
import DesignTokens.Yaml.Cursor
import DesignTokens.Yaml.Document
import DesignTokens.Yaml.Node
import DesignTokens.Yaml.ScalarText
import DesignTokens.Yaml.Schema
import DesignTokens.Yaml.Tag
import DesignTokens.Yaml.Token
