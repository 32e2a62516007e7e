import SmellCheck.Analysis.Run
import SmellCheck.Analysis.Threshold
import SmellCheck.Analysis.Workers
import SmellCheck.Assembly.Load
import SmellCheck.Browse.Browser
import SmellCheck.Browse.Viewport
import SmellCheck.Bytecode.Instruction
import SmellCheck.Bytecode.Listing
import SmellCheck.Bytecode.Method
import SmellCheck.Bytecode.Opcode
import SmellCheck.Bytecode.Signature
import SmellCheck.CommandLine.Command
import SmellCheck.CommandLine.Flag
import SmellCheck.CommandLine.Run
import SmellCheck.Digraph.Basic
import SmellCheck.Digraph.Explore
import SmellCheck.Digraph.Grouping
import SmellCheck.Digraph.Paths
import SmellCheck.Flow.Control
import SmellCheck.Flow.Provenance
import SmellCheck.Flow.Replay
import SmellCheck.Flow.Trace
import SmellCheck.Hash.Sha256
import SmellCheck.Json.Value
import SmellCheck.Main
import SmellCheck.Proofs.Analysis.Cap
import SmellCheck.Proofs.Analysis.Locality
import SmellCheck.Proofs.Analysis.Origins
import SmellCheck.Proofs.Analysis.Results
import SmellCheck.Proofs.Analysis.Schedule
import SmellCheck.Proofs.Analysis.Widening
import SmellCheck.Proofs.Assembly.Linking
import SmellCheck.Proofs.Assembly.Load
import SmellCheck.Proofs.Assembly.Spelling
import SmellCheck.Proofs.Bytecode.Comment
import SmellCheck.Proofs.Bytecode.Label
import SmellCheck.Proofs.Bytecode.Listing
import SmellCheck.Proofs.Bytecode.Literal
import SmellCheck.Proofs.Bytecode.Offsets
import SmellCheck.Proofs.Bytecode.OnLine
import SmellCheck.Proofs.Bytecode.Respelling
import SmellCheck.Proofs.Bytecode.RoundTrip
import SmellCheck.Proofs.Bytecode.Signature
import SmellCheck.Proofs.Bytecode.Transcript
import SmellCheck.Proofs.Digraph.Backward
import SmellCheck.Proofs.Digraph.Chains
import SmellCheck.Proofs.Digraph.Converse
import SmellCheck.Proofs.Digraph.Depth
import SmellCheck.Proofs.Digraph.EdgeWalks
import SmellCheck.Proofs.Digraph.Explore
import SmellCheck.Proofs.Digraph.Grouping
import SmellCheck.Proofs.Digraph.Iteration
import SmellCheck.Proofs.Digraph.Paths
import SmellCheck.Proofs.Digraph.Preorder
import SmellCheck.Proofs.Digraph.Reach
import SmellCheck.Proofs.Digraph.Tails
import SmellCheck.Proofs.Digraph.Walks
import SmellCheck.Proofs.FirstOccurrences
import SmellCheck.Proofs.Flow.Ancestry
import SmellCheck.Proofs.Flow.Consumption
import SmellCheck.Proofs.Flow.Control
import SmellCheck.Proofs.Flow.Coverage
import SmellCheck.Proofs.Flow.Height
import SmellCheck.Proofs.Flow.Indexing
import SmellCheck.Proofs.Flow.Provenance
import SmellCheck.Proofs.Flow.Reachability
import SmellCheck.Proofs.Flow.Slots
import SmellCheck.Proofs.Flow.Step
import SmellCheck.Proofs.Flow.Verdict
import SmellCheck.Proofs.Flow.Visits
import SmellCheck.Proofs.Json.Grammar
import SmellCheck.Proofs.Json.Unambiguous
import SmellCheck.Proofs.Json.Validity
import SmellCheck.Proofs.Outcome
import SmellCheck.Proofs.Report.Chains
import SmellCheck.Proofs.Report.Conformance
import SmellCheck.Proofs.Report.Regrouping
import SmellCheck.Proofs.Report.Schema
import SmellCheck.Proofs.Settings.Applied
import SmellCheck.Proofs.Smell.Branches
import SmellCheck.Proofs.Smell.ComputedBy
import SmellCheck.Proofs.Smell.Expectation
import SmellCheck.Proofs.Smell.Limit
import SmellCheck.Proofs.Testing.Asserting
import SmellCheck.Proofs.Text.Cutting
import SmellCheck.Proofs.Text.Numeral
import SmellCheck.Proofs.Text.Quoted
import SmellCheck.Real64.Basic
import SmellCheck.Real64.Literal
import SmellCheck.Real64.Shortest
import SmellCheck.Report.Basic
import SmellCheck.Report.Json
import SmellCheck.Report.Outline
import SmellCheck.Report.Schema
import SmellCheck.Report.Text
import SmellCheck.Report.Timestamp
import SmellCheck.Report.Tree
import SmellCheck.Settings.Basic
import SmellCheck.Settings.Filter
import SmellCheck.Smell.Finding
import SmellCheck.Smell.Rule
import SmellCheck.Testing.Framework
import SmellCheck.Testing.TestCase
import SmellCheck.Text.Base64
import SmellCheck.Text.Blank
import SmellCheck.Text.Cell
import SmellCheck.Text.CharColumns
import SmellCheck.Text.Cluster
import SmellCheck.Text.Columns
import SmellCheck.Text.Folding
import SmellCheck.Text.Glob
import SmellCheck.Text.Numeral
import SmellCheck.Text.Printable
import SmellCheck.Text.Quoted
import SmellCheck.Text.Split
import SmellCheck.Text.Utf8
import SmellCheck.Text.Wrap
import SmellCheck.Workspace.Folder
import SmellCheck.Workspace.Scaffold
import SmellCheck.Yaml.Cursor
import SmellCheck.Yaml.Moment
import SmellCheck.Yaml.Node
import SmellCheck.Yaml.Property
import SmellCheck.Yaml.Scalar
import SmellCheck.Yaml.Token
import SmellCheck.Yaml.Value
