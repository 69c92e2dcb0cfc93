import ViewWiring.Artifact
import ViewWiring.Artifact.Store
import ViewWiring.Batch
import ViewWiring.Binding
import ViewWiring.Binding.Build
import ViewWiring.Binding.Register
import ViewWiring.Code.ClassRef
import ViewWiring.Code.Initializer
import ViewWiring.Code.Names
import ViewWiring.Code.Printer
import ViewWiring.Code.SourceFile
import ViewWiring.CommandLine
import ViewWiring.CommandLine.Frontend
import ViewWiring.CommandLine.Run
import ViewWiring.Component
import ViewWiring.Config
import ViewWiring.Config.Schema
import ViewWiring.Diagnostic
import ViewWiring.Diagnostic.Collect
import ViewWiring.Diagnostic.Record
import ViewWiring.Diagnostic.Terminal
import ViewWiring.Files.Output
import ViewWiring.Files.Path
import ViewWiring.Files.Tree
import ViewWiring.Hierarchy
import ViewWiring.Identifier
import ViewWiring.Loading
import ViewWiring.Main
import ViewWiring.Manifest
import ViewWiring.Manifest.Schema
import ViewWiring.Member
import ViewWiring.Proofs.Artifact.Naming
import ViewWiring.Proofs.Artifact.Places
import ViewWiring.Proofs.Artifact.Store
import ViewWiring.Proofs.Artifact.Superclass
import ViewWiring.Proofs.Batch.Accounting
import ViewWiring.Proofs.Batch.Artifacts
import ViewWiring.Proofs.Batch.Emission
import ViewWiring.Proofs.Batch.Intake
import ViewWiring.Proofs.Batch.Namesakes
import ViewWiring.Proofs.Batch.Order
import ViewWiring.Proofs.Batch.Paths
import ViewWiring.Proofs.Batch.Policy
import ViewWiring.Proofs.Batch.Refusals
import ViewWiring.Proofs.Batch.Rehearsal
import ViewWiring.Proofs.Batch.Reporting
import ViewWiring.Proofs.Batch.Rerun
import ViewWiring.Proofs.Binding.Distinct
import ViewWiring.Proofs.Binding.Register
import ViewWiring.Proofs.CommandLine.Loading
import ViewWiring.Proofs.CommandLine.Outcome
import ViewWiring.Proofs.Config.ClassNames
import ViewWiring.Proofs.Config.Legal
import ViewWiring.Proofs.Diagnostic.Record
import ViewWiring.Proofs.Files.Cleared
import ViewWiring.Proofs.Files.Outcome
import ViewWiring.Proofs.Files.Output
import ViewWiring.Proofs.Files.Places
import ViewWiring.Proofs.Files.Settled
import ViewWiring.Proofs.Files.Standing
import ViewWiring.Proofs.Inheritance.Agreement
import ViewWiring.Proofs.Inheritance.Ancestors
import ViewWiring.Proofs.Inheritance.Ascent
import ViewWiring.Proofs.Inheritance.Declarers
import ViewWiring.Proofs.Inheritance.Hiding
import ViewWiring.Proofs.Inheritance.Intermediate
import ViewWiring.Proofs.Inheritance.Outcome
import ViewWiring.Proofs.Inheritance.Subclass
import ViewWiring.Proofs.Initializer.Capture
import ViewWiring.Proofs.Initializer.Correspondence
import ViewWiring.Proofs.Initializer.References
import ViewWiring.Proofs.Initializer.Scope
import ViewWiring.Proofs.Initializer.Statements
import ViewWiring.Proofs.Initializer.WellBound
import ViewWiring.Proofs.Manifest.Acceptance
import ViewWiring.Proofs.Names.Claims
import ViewWiring.Proofs.Names.Distinct
import ViewWiring.Proofs.Names.Identifiers
import ViewWiring.Proofs.Names.Imports
import ViewWiring.Proofs.Names.Qualified
import ViewWiring.Proofs.Names.Resolution
import ViewWiring.Proofs.Printer.Expressions
import ViewWiring.Proofs.Printer.Heads
import ViewWiring.Proofs.Printer.Layout
import ViewWiring.Proofs.Printer.Pieces
import ViewWiring.Proofs.Printer.Reading
import ViewWiring.Proofs.Printer.Sections
import ViewWiring.Proofs.Printer.Spelling
import ViewWiring.Proofs.Printer.Statements
import ViewWiring.Proofs.Text.ByteOrder
import ViewWiring.Proofs.Text.EmptyLines
import ViewWiring.Proofs.Text.JsonString
import ViewWiring.Proofs.Text.Layout
import ViewWiring.Proofs.Text.PrefixCodes
import ViewWiring.Proofs.Text.Reading
import ViewWiring.Proofs.Validation.Decision
import ViewWiring.Proofs.Validation.Faults
import ViewWiring.Proofs.Validation.Insertion
import ViewWiring.Proofs.Validation.Notes
import ViewWiring.Proofs.Validation.Outcome
import ViewWiring.Proofs.Validation.Policy
import ViewWiring.Proofs.Validation.Rules
import ViewWiring.Proofs.Validation.Siblings
import ViewWiring.Source
import ViewWiring.Source.Declarations
import ViewWiring.Source.Platform
import ViewWiring.Text.JsonString
import ViewWiring.Text.Lines
import ViewWiring.Text.Quoted
import ViewWiring.Text.Unprintable
import ViewWiring.Text.Utf8
import ViewWiring.Toml.Document
import ViewWiring.Toml.Number
import ViewWiring.Toml.Reader
import ViewWiring.Toml.Record
import ViewWiring.Toml.Table
import ViewWiring.Toml.Text
import ViewWiring.Toml.Value
import ViewWiring.TypeName
import ViewWiring.TypeRef
import ViewWiring.Validation
import ViewWiring.Validation.Fault
