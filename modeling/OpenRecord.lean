import OpenRecord.Capability
import OpenRecord.Code.Lines
import OpenRecord.Code.Term
import OpenRecord.Command.Arguments
import OpenRecord.Command.Invocation
import OpenRecord.Command.Report
import OpenRecord.Command.Run
import OpenRecord.Configuration
import OpenRecord.Decimal
import OpenRecord.Diagnostic
import OpenRecord.Expansion.AddedImports
import OpenRecord.Expansion.Bindings
import OpenRecord.Expansion.Expander
import OpenRecord.Expansion.Splice
import OpenRecord.Expansion.Walk
import OpenRecord.Files.Path
import OpenRecord.Files.Tree
import OpenRecord.Generation.Artifact
import OpenRecord.Generation.Collection
import OpenRecord.Generation.Companion
import OpenRecord.Generation.Editing
import OpenRecord.Generation.View
import OpenRecord.JsonValue
import OpenRecord.Live.Access
import OpenRecord.Live.Answer
import OpenRecord.Live.Call
import OpenRecord.Live.Declaration
import OpenRecord.Live.Definition
import OpenRecord.Live.Derivation
import OpenRecord.Live.Display
import OpenRecord.Live.Installation
import OpenRecord.Live.Literal
import OpenRecord.Live.Module
import OpenRecord.Live.Session
import OpenRecord.Live.Step
import OpenRecord.Live.Type
import OpenRecord.Live.Value
import OpenRecord.Location
import OpenRecord.Main
import OpenRecord.NameTable
import OpenRecord.Proofs.Expansion.Requests
import OpenRecord.Record.Basic
import OpenRecord.Record.Extraction
import OpenRecord.Record.GeneratedNames
import OpenRecord.Settings
import OpenRecord.Source.Expression
import OpenRecord.Source.Grammar
import OpenRecord.Source.Item
import OpenRecord.Source.Lexer
import OpenRecord.Source.Literal
import OpenRecord.Source.Outline
import OpenRecord.Source.Pattern
import OpenRecord.Source.Retrieval
import OpenRecord.Source.Token
import OpenRecord.Source.Tree
import OpenRecord.Text.Basic
import OpenRecord.Text.Blank
import OpenRecord.Text.Boundaries
import OpenRecord.Text.Digit
import OpenRecord.Text.Encoding
import OpenRecord.Text.Identifier
import OpenRecord.Text.Lines
import OpenRecord.Text.Margin
import OpenRecord.Text.Printable
import OpenRecord.Text.Quoted
import OpenRecord.Toml.Document
import OpenRecord.Toml.Scalar
import OpenRecord.Toml.Value
import OpenRecord.Proofs.Expansion.Settlement
import OpenRecord.Proofs.Expansion.Reporting
import OpenRecord.Proofs.Expansion.Frame
import OpenRecord.Proofs.Text.Dedent
import OpenRecord.Proofs.Source.OpeningWords
import OpenRecord.Proofs.Source.OpeningStatement
import OpenRecord.Proofs.Code.Reindentation
import OpenRecord.Proofs.Generation.Headlines
import OpenRecord.Proofs.Expansion.Splicing
import OpenRecord.Proofs.Source.Spelling
import OpenRecord.Proofs.Source.TreeLaw
import OpenRecord.Proofs.Expansion.StatementLists
import OpenRecord.Proofs.Expansion.TypeNames
import OpenRecord.Proofs.Expansion.TakenNames
import OpenRecord.Proofs.Expansion.ScopeStacks
import OpenRecord.Proofs.Expansion.ImportPlaces
import OpenRecord.Proofs.Expansion.Inspection
import OpenRecord.Proofs.Expansion.Prologue
import OpenRecord.Proofs.NameTable
import OpenRecord.Proofs.Record.Clashes
import OpenRecord.Proofs.Expansion.Members
import OpenRecord.Proofs.Live.Running
import OpenRecord.Proofs.Live.EmittedCode
import OpenRecord.Proofs.Live.Companion
import OpenRecord.Proofs.Live.CompanionObjects
import OpenRecord.Proofs.Live.Conversions
import OpenRecord.Proofs.Live.Reconstruction
import OpenRecord.Proofs.Live.WritableView
import OpenRecord.Proofs.Live.Substitution
import OpenRecord.Proofs.Live.Extension
import OpenRecord.Proofs.Live.Installing
import OpenRecord.Proofs.Live.Bookkeeping
import OpenRecord.Proofs.Live.Increments
import OpenRecord.Proofs.Live.Publication
import OpenRecord.Proofs.Live.Atomicity
import OpenRecord.Proofs.Expansion.Leftovers
import OpenRecord.Proofs.Source.Phrases
import OpenRecord.Proofs.Source.StatementPhrases
import OpenRecord.Proofs.Source.DeclaredNames
import OpenRecord.Proofs.Source.DecoratorLines
import OpenRecord.Proofs.Code.LineStarts
import OpenRecord.Proofs.Code.EmittedLines
import OpenRecord.Proofs.Generation.Decorators
import OpenRecord.Proofs.Expansion.Completeness
import OpenRecord.Proofs.Files.Places
import OpenRecord.Proofs.Files.Writing
import OpenRecord.Proofs.Command.SourceFiles
import OpenRecord.Proofs.Command.Checking
import OpenRecord.Proofs.Command.DirectoryExpansion
import OpenRecord.Proofs.Generation.Hygiene
import OpenRecord.Proofs.Generation.WellFormed
import OpenRecord.Proofs.Generation.EmittedNames
import OpenRecord.Proofs.Command.ExitCodes
import OpenRecord.Proofs.Record.TypeSpellings
import OpenRecord.Proofs.Record.Classification
import OpenRecord.Proofs.Expansion.Reextraction
import OpenRecord.Proofs.Source.ImportLine
import OpenRecord.Proofs.Expansion.AddedImports
import OpenRecord.Proofs.Configuration.Precedence
import OpenRecord.Proofs.Source.Margins
import OpenRecord.Proofs.Source.NestedLines
import OpenRecord.Proofs.Source.PrintedTree
import OpenRecord.Proofs.Source.PrintedText
import OpenRecord.Proofs.Command.QuietFiles
import OpenRecord.Proofs.Source.LiteralValues
import OpenRecord.Proofs.Source.Rescanning
import OpenRecord.Proofs.Source.LiteralRuns
import OpenRecord.Proofs.Source.LineTokens
import OpenRecord.Proofs.Source.DeclaredTypes
import OpenRecord.Proofs.Code.QuotedTypes
import OpenRecord.Proofs.Code.LevelLines
import OpenRecord.Proofs.Generation.LevelledCode
import OpenRecord.Proofs.Generation.Annotations
