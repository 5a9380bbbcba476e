import ServiceAnnotator.Attachment.Match
import ServiceAnnotator.Attachment.Service
import ServiceAnnotator.CommandLine.Arguments
import ServiceAnnotator.CommandLine.ChangeReport
import ServiceAnnotator.CommandLine.Outcome
import ServiceAnnotator.Diagnostic
import ServiceAnnotator.Events.Build
import ServiceAnnotator.Events.Parser
import ServiceAnnotator.Events.Rules
import ServiceAnnotator.FileSystem.Basic
import ServiceAnnotator.FileSystem.Tree
import ServiceAnnotator.Grammar.Declaration
import ServiceAnnotator.Grammar.Expression
import ServiceAnnotator.Grammar.Metadata
import ServiceAnnotator.Grammar.Module
import ServiceAnnotator.Grammar.Parsed
import ServiceAnnotator.Grammar.Problem
import ServiceAnnotator.Main
import ServiceAnnotator.Package.Basic
import ServiceAnnotator.Package.Compilation
import ServiceAnnotator.Package.Discovery
import ServiceAnnotator.Proofs.Attachment.Clean
import ServiceAnnotator.Proofs.Attachment.Concatenation
import ServiceAnnotator.Proofs.Attachment.Fixpoint
import ServiceAnnotator.Proofs.Attachment.Idempotence
import ServiceAnnotator.Proofs.Attachment.Indent
import ServiceAnnotator.Proofs.Attachment.Injection
import ServiceAnnotator.Proofs.Attachment.Insertion
import ServiceAnnotator.Proofs.Attachment.Match
import ServiceAnnotator.Proofs.Attachment.Module
import ServiceAnnotator.Proofs.Attachment.Printed
import ServiceAnnotator.Proofs.Attachment.Reference
import ServiceAnnotator.Proofs.Attachment.Reparse
import ServiceAnnotator.Proofs.Attachment.Reread
import ServiceAnnotator.Proofs.Attachment.Selection
import ServiceAnnotator.Proofs.Attachment.Service
import ServiceAnnotator.Proofs.Attachment.Target
import ServiceAnnotator.Proofs.Check.Diagnostics
import ServiceAnnotator.Proofs.Check.Imports
import ServiceAnnotator.Proofs.Check.Problems
import ServiceAnnotator.Proofs.Events.Declaration
import ServiceAnnotator.Proofs.Events.Described
import ServiceAnnotator.Proofs.Events.Expression
import ServiceAnnotator.Proofs.Events.Metadata
import ServiceAnnotator.Proofs.Events.Module
import ServiceAnnotator.Proofs.Events.Outline
import ServiceAnnotator.Proofs.Events.Overflow.Agree
import ServiceAnnotator.Proofs.Events.Overflow.Calls
import ServiceAnnotator.Proofs.Events.Overflow.Counts
import ServiceAnnotator.Proofs.Events.Overflow.Follows
import ServiceAnnotator.Proofs.Events.Overflow.Lossless
import ServiceAnnotator.Proofs.Events.Overflow.Parse
import ServiceAnnotator.Proofs.Events.Overflow.Rules
import ServiceAnnotator.Proofs.Events.Overflow.Steps
import ServiceAnnotator.Proofs.Events.Parse
import ServiceAnnotator.Proofs.Events.Runs
import ServiceAnnotator.Proofs.Events.Shape
import ServiceAnnotator.Proofs.Events.Steps
import ServiceAnnotator.Proofs.FileSystem.Path
import ServiceAnnotator.Proofs.FileSystem.Tree
import ServiceAnnotator.Proofs.FileSystem.Write
import ServiceAnnotator.Proofs.Fragment.Reread
import ServiceAnnotator.Proofs.Fragment.RoundTrip
import ServiceAnnotator.Proofs.Fragment.Value
import ServiceAnnotator.Proofs.Grammar.Accepts
import ServiceAnnotator.Proofs.Grammar.Accepts.Declaration
import ServiceAnnotator.Proofs.Grammar.Accepts.Metadata
import ServiceAnnotator.Proofs.Grammar.Accepts.Module
import ServiceAnnotator.Proofs.Grammar.Accepts.Run
import ServiceAnnotator.Proofs.Grammar.Composed
import ServiceAnnotator.Proofs.Grammar.Concatenation
import ServiceAnnotator.Proofs.Grammar.Equations
import ServiceAnnotator.Proofs.Grammar.Frame.Boundary
import ServiceAnnotator.Proofs.Grammar.Frame.Declaration
import ServiceAnnotator.Proofs.Grammar.Frame.Ending
import ServiceAnnotator.Proofs.Grammar.Frame.Expression
import ServiceAnnotator.Proofs.Grammar.Frame.Member
import ServiceAnnotator.Proofs.Grammar.Frame.Metadata
import ServiceAnnotator.Proofs.Grammar.Import
import ServiceAnnotator.Proofs.Grammar.Lossless
import ServiceAnnotator.Proofs.Grammar.Order
import ServiceAnnotator.Proofs.Grammar.Phrase
import ServiceAnnotator.Proofs.Grammar.Relabel
import ServiceAnnotator.Proofs.Grammar.Shape
import ServiceAnnotator.Proofs.Grammar.Shape.Declaration
import ServiceAnnotator.Proofs.Package.Discovery
import ServiceAnnotator.Proofs.Package.Edits
import ServiceAnnotator.Proofs.Package.Encoding
import ServiceAnnotator.Proofs.Package.History
import ServiceAnnotator.Proofs.Package.Indexes
import ServiceAnnotator.Proofs.Package.Listing
import ServiceAnnotator.Proofs.Package.Reload
import ServiceAnnotator.Proofs.Package.SecondPass
import ServiceAnnotator.Proofs.Package.Sources
import ServiceAnnotator.Proofs.Scan.Alone
import ServiceAnnotator.Proofs.Scan.Attached
import ServiceAnnotator.Proofs.Scan.Blank
import ServiceAnnotator.Proofs.Scan.Keyword
import ServiceAnnotator.Proofs.Scan.Layout
import ServiceAnnotator.Proofs.Scan.Lookahead
import ServiceAnnotator.Proofs.Scan.Name
import ServiceAnnotator.Proofs.Scan.Reading
import ServiceAnnotator.Proofs.Scan.Seam
import ServiceAnnotator.Proofs.Scan.Tokenizer
import ServiceAnnotator.Proofs.Scan.Transfer
import ServiceAnnotator.Proofs.Syntax.Layout
import ServiceAnnotator.Proofs.Text.Insertion
import ServiceAnnotator.Proofs.Text.Tiling
import ServiceAnnotator.Proofs.Text.Utf8
import ServiceAnnotator.Proofs.Tree.Assembled
import ServiceAnnotator.Proofs.Tree.Builder
import ServiceAnnotator.Proofs.Tree.EdgeChange
import ServiceAnnotator.Proofs.Tree.EdgePath
import ServiceAnnotator.Proofs.Tree.EdgeSearch
import ServiceAnnotator.Proofs.Tree.Edges
import ServiceAnnotator.Proofs.Tree.FirstLeaf
import ServiceAnnotator.Proofs.Tree.Handle
import ServiceAnnotator.Proofs.Tree.Leaves
import ServiceAnnotator.Proofs.Tree.Linearization
import ServiceAnnotator.Proofs.Tree.Mapping
import ServiceAnnotator.Proofs.Tree.Measured
import ServiceAnnotator.Proofs.Tree.Place
import ServiceAnnotator.Proofs.Tree.Placement
import ServiceAnnotator.Proofs.Tree.Position
import ServiceAnnotator.Proofs.Tree.Replacement
import ServiceAnnotator.Proofs.Tree.Shape
import ServiceAnnotator.Proofs.Tree.Subtree
import ServiceAnnotator.Proofs.Tree.TopLevel
import ServiceAnnotator.Proofs.Tree.Trimming
import ServiceAnnotator.Render.Excerpt
import ServiceAnnotator.Render.Report
import ServiceAnnotator.Render.Row
import ServiceAnnotator.Render.Window
import ServiceAnnotator.SourceCheck
import ServiceAnnotator.Syntax.Fragment
import ServiceAnnotator.Syntax.Kind
import ServiceAnnotator.Syntax.KindSet
import ServiceAnnotator.Syntax.Scan.Lexeme
import ServiceAnnotator.Syntax.Scan.Stream
import ServiceAnnotator.Syntax.Scan.Tokenizer
import ServiceAnnotator.Syntax.StoredTrivia
import ServiceAnnotator.Syntax.Token
import ServiceAnnotator.Syntax.Tree.Assembly
import ServiceAnnotator.Syntax.Tree.Basic
import ServiceAnnotator.Syntax.Tree.Builder
import ServiceAnnotator.Syntax.Tree.Dump
import ServiceAnnotator.Syntax.Tree.EdgeSearch
import ServiceAnnotator.Syntax.Tree.Edges
import ServiceAnnotator.Syntax.Tree.Edit
import ServiceAnnotator.Syntax.Tree.Handle
import ServiceAnnotator.Syntax.Tree.Measured
import ServiceAnnotator.Syntax.Tree.Place
import ServiceAnnotator.Syntax.Trivia
import ServiceAnnotator.Syntax.View
import ServiceAnnotator.Text.Alphabetic
import ServiceAnnotator.Text.Blank
import ServiceAnnotator.Text.Bytes
import ServiceAnnotator.Text.JsonString
import ServiceAnnotator.Text.Numeric
import ServiceAnnotator.Text.Position
import ServiceAnnotator.Text.Quoted
import ServiceAnnotator.Text.RangeTable
import ServiceAnnotator.Text.Span
import ServiceAnnotator.Text.Utf8
import ServiceAnnotator.Text.Width
import ServiceAnnotator.Toml.Document
import ServiceAnnotator.Toml.Lexical
import ServiceAnnotator.Toml.Manifest
import ServiceAnnotator.Toml.Number
import ServiceAnnotator.Toml.Reader
import ServiceAnnotator.Toml.Table
