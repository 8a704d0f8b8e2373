import TestSynth.Artifact.Basic
import TestSynth.Artifact.Encoding
import TestSynth.Artifact.TranslationUnit
import TestSynth.CommandLine.Arguments
import TestSynth.CommandLine.Execution
import TestSynth.CommandLine.Grammar
import TestSynth.Completion.Stream
import TestSynth.Completion.Target
import TestSynth.Convergence.Collaborators
import TestSynth.Convergence.History
import TestSynth.Convergence.Loop
import TestSynth.Convergence.Rehearsal
import TestSynth.Convergence.Repair
import TestSynth.Convergence.RunDirectory
import TestSynth.Convergence.Timestamp
import TestSynth.Coverage.Aggregate
import TestSynth.Coverage.Observation
import TestSynth.Coverage.Snapshot
import TestSynth.Declaration.Basic
import TestSynth.Declaration.Parameter
import TestSynth.Declaration.Signature
import TestSynth.Failure
import TestSynth.Files.Archive
import TestSynth.Files.Digest
import TestSynth.Files.Node
import TestSynth.Files.Tree
import TestSynth.Header.ClassBody
import TestSynth.Header.Head
import TestSynth.Header.Scan
import TestSynth.Json.Basic
import TestSynth.Json.Decode
import TestSynth.Json.Parser
import TestSynth.Json.Printer
import TestSynth.Main
import TestSynth.Model.Basic
import TestSynth.Model.Encoding
import TestSynth.Model.Table
import TestSynth.NameSet
import TestSynth.Number.Binary64
import TestSynth.Number.Decimal
import TestSynth.Number.Layout
import TestSynth.Number.Shortest
import TestSynth.OrderedMap
import TestSynth.Path
import TestSynth.Plan.Basic
import TestSynth.Plan.Encoding
import TestSynth.Plan.StandIn
import TestSynth.Process.Session
import TestSynth.Process.System
import TestSynth.Programs.Columns
import TestSynth.Programs.Comparing
import TestSynth.Programs.Condition
import TestSynth.Programs.Counting
import TestSynth.Programs.Echoing
import TestSynth.Programs.EditScript
import TestSynth.Programs.Editor
import TestSynth.Programs.Encoding
import TestSynth.Programs.Expressions
import TestSynth.Programs.Filing
import TestSynth.Programs.Finding
import TestSynth.Programs.Format
import TestSynth.Programs.Launching
import TestSynth.Programs.Lines
import TestSynth.Programs.Listing
import TestSynth.Programs.Naming
import TestSynth.Programs.Options
import TestSynth.Programs.Records.Evaluation
import TestSynth.Programs.Records.Format
import TestSynth.Programs.Records.Parser
import TestSynth.Programs.Records.Rules
import TestSynth.Programs.Records.State
import TestSynth.Programs.Records.Streams
import TestSynth.Programs.Records.Syntax
import TestSynth.Programs.Records.Table
import TestSynth.Programs.Records.Tokens
import TestSynth.Programs.Records.Value
import TestSynth.Programs.Searching
import TestSynth.Programs.Sorting
import TestSynth.Programs.Standard
import TestSynth.Programs.Tool
import TestSynth.Project.Analysis
import TestSynth.Project.Scan
import TestSynth.Proofs.Artifact.Naming
import TestSynth.Proofs.Completion.Stream
import TestSynth.Proofs.Convergence.Attempts
import TestSynth.Proofs.Convergence.Budget
import TestSynth.Proofs.Convergence.BuildDirectories
import TestSynth.Proofs.Convergence.Cleaning
import TestSynth.Proofs.Convergence.Deliveries
import TestSynth.Proofs.Convergence.Lines
import TestSynth.Proofs.Convergence.Persistence
import TestSynth.Proofs.Convergence.Records
import TestSynth.Proofs.Convergence.RequestedNames
import TestSynth.Proofs.Convergence.Rounds
import TestSynth.Proofs.Convergence.Succession
import TestSynth.Proofs.Coverage.Bounds
import TestSynth.Proofs.Coverage.Exclusion
import TestSynth.Proofs.Coverage.Membership
import TestSynth.Proofs.Coverage.Merging
import TestSynth.Proofs.Coverage.Percentage
import TestSynth.Proofs.Coverage.Reading
import TestSynth.Proofs.Coverage.Reference
import TestSynth.Proofs.Coverage.Reordering
import TestSynth.Proofs.Declaration.Cutting
import TestSynth.Proofs.Declaration.Functions
import TestSynth.Proofs.Declaration.Operators
import TestSynth.Proofs.Declaration.ParameterLists
import TestSynth.Proofs.Declaration.Parsing
import TestSynth.Proofs.Declaration.Prototypes
import TestSynth.Proofs.Declaration.Spelling
import TestSynth.Proofs.Declaration.TypeSyntax
import TestSynth.Proofs.Declaration.WellFormed
import TestSynth.Proofs.Files.Tree
import TestSynth.Proofs.Header.Arguments
import TestSynth.Proofs.Header.Body
import TestSynth.Proofs.Header.Concatenation
import TestSynth.Proofs.Header.Defaults
import TestSynth.Proofs.Header.Enclosing
import TestSynth.Proofs.Header.Heads
import TestSynth.Proofs.Header.Invisibility
import TestSynth.Proofs.Header.Items
import TestSynth.Proofs.Header.Layout
import TestSynth.Proofs.Header.Linkage
import TestSynth.Proofs.Header.Members
import TestSynth.Proofs.Header.Reformatting
import TestSynth.Proofs.Header.Respacing
import TestSynth.Proofs.Header.RoundTrip
import TestSynth.Proofs.Header.WellFormed
import TestSynth.Proofs.Model.Filling
import TestSynth.Proofs.Model.Table
import TestSynth.Proofs.Model.Union
import TestSynth.Proofs.NameSet
import TestSynth.Proofs.Number.Rounding
import TestSynth.Proofs.OrderedMap
import TestSynth.Proofs.Path
import TestSynth.Proofs.Plan.Minimality
import TestSynth.Proofs.Plan.Overrides
import TestSynth.Proofs.Plan.Planning
import TestSynth.Proofs.Plan.References
import TestSynth.Proofs.Scenario.Closure
import TestSynth.Proofs.Scenario.Completeness
import TestSynth.Proofs.Scenario.FirstTests
import TestSynth.Proofs.Scenario.Identity
import TestSynth.Proofs.Scenario.Kinds
import TestSynth.Proofs.Scenario.Ladder
import TestSynth.Proofs.Scenario.Lineage
import TestSynth.Proofs.Scenario.Names
import TestSynth.Proofs.Scenario.Respelling
import TestSynth.Proofs.Scenario.Restriction
import TestSynth.Proofs.Scenario.Scoping
import TestSynth.Proofs.Scenario.Targets
import TestSynth.Proofs.Synthesis.Locals
import TestSynth.Proofs.Synthesis.Passing
import TestSynth.Proofs.Synthesis.Pointers
import TestSynth.Proofs.Synthesis.StandIns
import TestSynth.Proofs.Text.Braces
import TestSynth.Proofs.Text.Bytes
import TestSynth.Proofs.Text.InPlace
import TestSynth.Proofs.Text.Masking
import TestSynth.Proofs.Text.Nesting
import TestSynth.Proofs.Text.Splitting
import TestSynth.Proofs.Text.Squeezing
import TestSynth.Proofs.Text.Words
import TestSynth.Proofs.Typing.Category
import TestSynth.Regex.Basic
import TestSynth.Regex.Parser
import TestSynth.Regex.Search
import TestSynth.Scenario.Generator
import TestSynth.Scenario.Refinement
import TestSynth.Scenario.Regeneration
import TestSynth.Settings.Basic
import TestSynth.Settings.Encoding
import TestSynth.Shell.Arithmetic
import TestSynth.Shell.Builtins
import TestSynth.Shell.Evaluation
import TestSynth.Shell.Expansion
import TestSynth.Shell.Invocation
import TestSynth.Shell.Lexer
import TestSynth.Shell.Machine
import TestSynth.Shell.Parser
import TestSynth.Shell.Reader
import TestSynth.Shell.Splitting
import TestSynth.Shell.State
import TestSynth.Shell.Subshell
import TestSynth.Shell.Syntax
import TestSynth.Shell.Tokens
import TestSynth.Synthesis.Arguments
import TestSynth.Text.Classes
import TestSynth.Text.CodePoints
import TestSynth.Text.Difference
import TestSynth.Text.Masking
import TestSynth.Text.Nesting
import TestSynth.Text.Pattern
import TestSynth.Text.Utf8
import TestSynth.Toml.Document
import TestSynth.Toml.Scalar
import TestSynth.Toolchain.Harness
import TestSynth.Typing.Category
