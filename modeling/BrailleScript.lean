import BrailleScript.Backend
import BrailleScript.Backend.DryRun
import BrailleScript.Backend.Similarity
import BrailleScript.Builtin
import BrailleScript.Cell
import BrailleScript.CommandLine
import BrailleScript.CommandLine.Arguments
import BrailleScript.CommandLine.Console
import BrailleScript.CommandLine.Files
import BrailleScript.Config
import BrailleScript.Decimal.Binary
import BrailleScript.Decimal.Fixed
import BrailleScript.Decimal.Layout
import BrailleScript.Decimal.Reading
import BrailleScript.Decimal.Shortest
import BrailleScript.Diagnostic
import BrailleScript.Digest.Sha256
import BrailleScript.Domain
import BrailleScript.Error
import BrailleScript.Failure
import BrailleScript.Fields
import BrailleScript.Heap
import BrailleScript.Heap.Equality
import BrailleScript.Heap.Json
import BrailleScript.Heap.Text
import BrailleScript.Instant
import BrailleScript.JavaScript.Compiler
import BrailleScript.JavaScript.Emitter
import BrailleScript.JavaScript.Name
import BrailleScript.JavaScript.Preamble
import BrailleScript.Json
import BrailleScript.Json.Printer
import BrailleScript.Json.Reader
import BrailleScript.Json.Shape
import BrailleScript.Json.Skip
import BrailleScript.Ledger
import BrailleScript.Ledger.Bundle
import BrailleScript.Ledger.Cache
import BrailleScript.Ledger.Log
import BrailleScript.Ledger.Trace
import BrailleScript.LogLevel
import BrailleScript.Machine
import BrailleScript.Machine.Access
import BrailleScript.Machine.Builtins
import BrailleScript.Machine.Eval
import BrailleScript.Machine.Execution
import BrailleScript.Machine.Operation
import BrailleScript.Machine.Primitives
import BrailleScript.Main
import BrailleScript.Node
import BrailleScript.Node.Outline
import BrailleScript.Node.Parser
import BrailleScript.Number
import BrailleScript.Path
import BrailleScript.Position
import BrailleScript.Primitive
import BrailleScript.Readable
import BrailleScript.Scope
import BrailleScript.Symbol
import BrailleScript.Template
import BrailleScript.Text.Blank
import BrailleScript.Text.Identifier
import BrailleScript.Text.Letter
import BrailleScript.Text.Lines
import BrailleScript.Text.Printable
import BrailleScript.Text.Quoted
import BrailleScript.Text.RangeTable
import BrailleScript.Text.Search
import BrailleScript.Text.Shorten
import BrailleScript.Text.Utf8
import BrailleScript.Token
import BrailleScript.Token.Lexer
import BrailleScript.Toml
import BrailleScript.Toml.Reader
import BrailleScript.Toml.Report
import BrailleScript.Toml.Scalar
import BrailleScript.Value
import BrailleScript.Proofs.Assignment
import BrailleScript.Proofs.Cell
import BrailleScript.Proofs.Completeness
import BrailleScript.Proofs.Constants
import BrailleScript.Proofs.Decimal.Layout
import BrailleScript.Proofs.Decimal.Reading
import BrailleScript.Proofs.Decimal.Rounding
import BrailleScript.Proofs.Decimal.Whole
import BrailleScript.Proofs.Diagnostic
import BrailleScript.Proofs.Fields
import BrailleScript.Proofs.Halting
import BrailleScript.Proofs.Heap.Comparison
import BrailleScript.Proofs.Heap.Cycles
import BrailleScript.Proofs.Heap.Json
import BrailleScript.Proofs.Heap.RoundTrip
import BrailleScript.Proofs.Heap.Shown
import BrailleScript.Proofs.Heap.Walks
import BrailleScript.Proofs.ItemAssignment
import BrailleScript.Proofs.JavaScript.Balance
import BrailleScript.Proofs.JavaScript.Collecting
import BrailleScript.Proofs.JavaScript.Composition
import BrailleScript.Proofs.JavaScript.Containment
import BrailleScript.Proofs.JavaScript.Declarations
import BrailleScript.Proofs.JavaScript.Drawing
import BrailleScript.Proofs.JavaScript.Emission
import BrailleScript.Proofs.JavaScript.Endings
import BrailleScript.Proofs.JavaScript.Expansion
import BrailleScript.Proofs.JavaScript.Landmarks
import BrailleScript.Proofs.JavaScript.Mirror
import BrailleScript.Proofs.JavaScript.Mutability
import BrailleScript.Proofs.JavaScript.Names
import BrailleScript.Proofs.JavaScript.Pieces
import BrailleScript.Proofs.JavaScript.Placeholder
import BrailleScript.Proofs.JavaScript.Scan
import BrailleScript.Proofs.JavaScript.Sketch
import BrailleScript.Proofs.JavaScript.Statements
import BrailleScript.Proofs.JavaScript.Stackless
import BrailleScript.Proofs.JavaScript.Targets
import BrailleScript.Proofs.JavaScript.Templates
import BrailleScript.Proofs.JavaScript.Tidy
import BrailleScript.Proofs.JavaScript.Trails
import BrailleScript.Proofs.Json.Canonical
import BrailleScript.Proofs.Json.Quote
import BrailleScript.Proofs.Ledger.Accounts
import BrailleScript.Proofs.Ledger.Cache
import BrailleScript.Proofs.Ledger.Dates
import BrailleScript.Proofs.Ledger.Quiet
import BrailleScript.Proofs.Ledger.Recency
import BrailleScript.Proofs.Ledger.Served
import BrailleScript.Proofs.Ledger.Threads
import BrailleScript.Proofs.Ledger.Trace
import BrailleScript.Proofs.Ledger.Turns
import BrailleScript.Proofs.Lexical
import BrailleScript.Proofs.Machine.Breaks
import BrailleScript.Proofs.Machine.Checked
import BrailleScript.Proofs.Machine.Congruence
import BrailleScript.Proofs.Machine.Definitions
import BrailleScript.Proofs.Machine.Discipline
import BrailleScript.Proofs.Machine.DisciplineRun
import BrailleScript.Proofs.Machine.DisciplineSteps
import BrailleScript.Proofs.Machine.Lockstep
import BrailleScript.Proofs.Machine.LockstepRun
import BrailleScript.Proofs.Machine.Noting
import BrailleScript.Proofs.Machine.Placed
import BrailleScript.Proofs.Machine.Plain
import BrailleScript.Proofs.Machine.Probe
import BrailleScript.Proofs.Machine.Request
import BrailleScript.Proofs.Machine.RequestKey
import BrailleScript.Proofs.Machine.Restored
import BrailleScript.Proofs.Machine.Service
import BrailleScript.Proofs.Machine.Surroundings
import BrailleScript.Proofs.Machine.Watch
import BrailleScript.Proofs.Machine.Wrapper
import BrailleScript.Proofs.Machine.Yielding
import BrailleScript.Proofs.Node.Boundary
import BrailleScript.Proofs.Node.Bounds
import BrailleScript.Proofs.Node.Chains
import BrailleScript.Proofs.Node.Counter
import BrailleScript.Proofs.Node.Expression
import BrailleScript.Proofs.Node.Fits
import BrailleScript.Proofs.Node.Gives
import BrailleScript.Proofs.Node.Grouping
import BrailleScript.Proofs.Node.Nesting
import BrailleScript.Proofs.Node.Parts
import BrailleScript.Proofs.Node.Plan
import BrailleScript.Proofs.Node.Precedence
import BrailleScript.Proofs.Node.Progress
import BrailleScript.Proofs.Node.Reads
import BrailleScript.Proofs.Node.Rows
import BrailleScript.Proofs.Node.Separator
import BrailleScript.Proofs.Node.Settles
import BrailleScript.Proofs.Node.Soundness
import BrailleScript.Proofs.Node.Spans
import BrailleScript.Proofs.Node.Statement
import BrailleScript.Proofs.Node.Steady
import BrailleScript.Proofs.Node.Takes
import BrailleScript.Proofs.Node.WellFormed
import BrailleScript.Proofs.Node.Writer
import BrailleScript.Proofs.Node.Yields
import BrailleScript.Proofs.Readable
import BrailleScript.Proofs.Recursion
import BrailleScript.Proofs.Replay
import BrailleScript.Proofs.Shape
import BrailleScript.Proofs.Termination
import BrailleScript.Proofs.Text.Blank
import BrailleScript.Proofs.Text.Utf8
import BrailleScript.Proofs.Token.Coverage
import BrailleScript.Proofs.Token.Leniency
import BrailleScript.Proofs.Token.Names
import BrailleScript.Proofs.Token.Newline
import BrailleScript.Proofs.Token.Positions
import BrailleScript.Proofs.Token.Reading
import BrailleScript.Proofs.Token.Spelling
import BrailleScript.Proofs.Token.Texts
import BrailleScript.Proofs.Tracing
import BrailleScript.Proofs.Transparency
import BrailleScript.Proofs.Template
import BrailleScript.Proofs.Ledger.Chronicle
import BrailleScript.Proofs.Ledger.Expiry
import BrailleScript.Proofs.Ranking
