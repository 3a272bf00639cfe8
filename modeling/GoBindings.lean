import GoBindings.Binding.CodeUnit
import GoBindings.Binding.Constructor
import GoBindings.Binding.Method
import GoBindings.Binding.Resolved
import GoBindings.Binding.Stub
import GoBindings.CommandLine
import GoBindings.Compilation
import GoBindings.Decimal.Binary64
import GoBindings.Decimal.Shortest
import GoBindings.DocText
import GoBindings.Failure
import GoBindings.FileTree
import GoBindings.Glob.Pattern
import GoBindings.Glob.Search
import GoBindings.Go.Printer
import GoBindings.Go.Syntax
import GoBindings.Identifier
import GoBindings.Interface.Default
import GoBindings.Interface.Module
import GoBindings.Interface.OfSchema
import GoBindings.Json.Number
import GoBindings.Json.Token
import GoBindings.Json.Tree
import GoBindings.Json.Value
import GoBindings.LogFilter
import GoBindings.Logged
import GoBindings.Main
import GoBindings.NameSet
import GoBindings.Output
import GoBindings.Path
import GoBindings.Registry
import GoBindings.Schema.Document
import GoBindings.Schema.Reading
import GoBindings.Settings
import GoBindings.SettingsFile
import GoBindings.Source
import GoBindings.Text.Blank
import GoBindings.Text.Case
import GoBindings.Text.CaseTable
import GoBindings.Text.Hex
import GoBindings.Text.PrintableTable
import GoBindings.Text.Quoted
import GoBindings.Text.Ranges
import GoBindings.Toml.Moment
import GoBindings.Toml.Number
import GoBindings.Toml.Reading
import GoBindings.Toml.Text
import GoBindings.Toml.Value
import GoBindings.TypeExpr
import GoBindings.Proofs.Declarations
import GoBindings.Proofs.Hierarchy
import GoBindings.Proofs.Stages
import GoBindings.Proofs.Run
import GoBindings.Proofs.Ownership
import GoBindings.Proofs.Emission
import GoBindings.Proofs.References
import GoBindings.Proofs.SourceOrder
import GoBindings.Proofs.AddedSources
import GoBindings.Proofs.Overrides
import GoBindings.Proofs.ClassCode
import GoBindings.Proofs.Capabilities
import GoBindings.Proofs.Inheritance
import GoBindings.Proofs.Redeclaration
import GoBindings.Proofs.CodeLines
import GoBindings.Proofs.Documentation
import GoBindings.Proofs.Paths
import GoBindings.Proofs.Failures
import GoBindings.Proofs.Writing
import GoBindings.Proofs.Evaluation
import GoBindings.Proofs.SparseRequest
import GoBindings.Proofs.StructFields
import GoBindings.Proofs.LegalNames
import GoBindings.Proofs.FiniteStructs
import GoBindings.Proofs.EnumBases
import GoBindings.Proofs.JsonTexts
import GoBindings.Proofs.DocumentEdits
import GoBindings.Proofs.ReturnBlocks
import GoBindings.Proofs.Occurrences
import GoBindings.Proofs.MapKeys
import GoBindings.Proofs.Rounding
import GoBindings.Proofs.Defaults
import GoBindings.Proofs.ConstructorDefaults
import GoBindings.Proofs.Imports
import GoBindings.Proofs.TypeGrammar
import GoBindings.Proofs.Scopes
import GoBindings.Proofs.LineFilling
import GoBindings.Proofs.Markup
import GoBindings.Proofs.OutputPaths
import GoBindings.Proofs.SourceSearch
import GoBindings.Proofs.StringLiterals
import GoBindings.Proofs.ReportedCycles
import GoBindings.Proofs.LineBreaks
import GoBindings.Proofs.PointerTypes
import GoBindings.Proofs.Indentation
