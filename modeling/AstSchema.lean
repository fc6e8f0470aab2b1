import AstSchema.CommandLine
import AstSchema.CommandLine.Grammar
import AstSchema.CommandLine.Reading
import AstSchema.Compilation
import AstSchema.Conclusion
import AstSchema.Decimal
import AstSchema.Decimal.Shortest
import AstSchema.Delivery
import AstSchema.Failure
import AstSchema.FileTree
import AstSchema.Glob
import AstSchema.Glob.Expansion
import AstSchema.Host
import AstSchema.Inputs
import AstSchema.Json.Document
import AstSchema.Json.Fault
import AstSchema.Json.Reading
import AstSchema.Listing
import AstSchema.Lox.Evaluation
import AstSchema.Lox.ListForm
import AstSchema.Lox.Scope
import AstSchema.Lox.Syntax
import AstSchema.Lox.Value
import AstSchema.Main
import AstSchema.Malformation
import AstSchema.Manifest
import AstSchema.Manifest.Reading
import AstSchema.Nesting
import AstSchema.Path
import AstSchema.Preset
import AstSchema.Run
import AstSchema.Schema
import AstSchema.Schema.Reading
import AstSchema.SourceText
import AstSchema.Text.Blank
import AstSchema.Text.Case
import AstSchema.Text.CodePoints
import AstSchema.Text.Lines
import AstSchema.Text.Lowercase
import AstSchema.Text.Printable
import AstSchema.Text.Quoted
import AstSchema.TypeText
import AstSchema.Proofs.Scan
import AstSchema.Proofs.BracketGrammar
import AstSchema.Proofs.FieldList
import AstSchema.Proofs.Spelling
import AstSchema.Proofs.Padding
import AstSchema.Proofs.Separation
import AstSchema.Proofs.Recovery
import AstSchema.Proofs.SourceLines
import AstSchema.Proofs.Words
import AstSchema.Proofs.LostComma
import AstSchema.Proofs.TypeBalance
import AstSchema.Proofs.Query
import AstSchema.Proofs.Comparison
import AstSchema.Proofs.FirstFailure
import AstSchema.Proofs.FirstMalformation
import AstSchema.Proofs.Growth
import AstSchema.Proofs.LastWriter
import AstSchema.Proofs.DeliveredPrefix
import AstSchema.Proofs.Confinement
import AstSchema.Proofs.JsonSpelling
import AstSchema.Proofs.ManifestSpelling
import AstSchema.Proofs.JsonValue
import AstSchema.Proofs.JsonFault
import AstSchema.Proofs.ManifestFault
import AstSchema.Proofs.JsonLocality
import AstSchema.Proofs.ManifestLocality
import AstSchema.Proofs.ListingOrder
import AstSchema.Proofs.ListingText
import AstSchema.Proofs.Agreement
import AstSchema.Proofs.Lox.Parts
import AstSchema.Proofs.Lox.Reaching
import AstSchema.Proofs.Lox.Frames
import AstSchema.Proofs.Lox.Scoping
import AstSchema.Proofs.Lox.Restoration
import AstSchema.Proofs.Lox.Breaks
import AstSchema.Proofs.Lox.Endings
import AstSchema.Proofs.Lox.Shadowing
import AstSchema.Proofs.Lox.Bindings
import AstSchema.Proofs.Lox.Lockstep
import AstSchema.Proofs.Lox.Grouping
import AstSchema.Proofs.Lox.Printing
import AstSchema.Proofs.Lox.Skeletons
