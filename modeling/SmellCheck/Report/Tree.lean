import SmellCheck.Digraph.Grouping
import SmellCheck.Report.Basic
/-!
# Reports as trees

A report is a tree: the assembly is the root, below it are the declaring
types and one node for the tests that could not be analyzed, below those
the tests, and below these their violations. Tests are told apart by
their signatures; of several records for one signature the last counts.
-/

namespace SmellCheck

/-- A node of a report's tree. -/
inductive ReportNode where
  | assembly (name : String)
  | type (name : String)
  /-- Above the tests that could not be analyzed. -/
  | failed
  | test (signature : String)
  /-- The violation of a test with the given index. -/
  | violation (signature : String) (index : Nat)
  deriving DecidableEq

namespace ReportNode

/-- The kind of a node. -/
def kind : ReportNode → String
  | assembly _ => "assembly"
  | type _ => "type"
  | failed => "failed"
  | test _ => "test"
  | violation _ _ => "violation"

/-- What tells a node from others of its kind. -/
def key : ReportNode → String
  | assembly name => name
  | type name => name
  | failed => "failed"
  | test signature => signature
  | violation signature index => signature ++ "#" ++ Nat.repr index

/-- The wording of a node in a message. -/
def text (n : ReportNode) : String :=
  "\x7b" ++ n.kind ++ " " ++ n.key ++ "\x7d"

end ReportNode

namespace Report

/-- The result of the test with the given signature. -/
def result? (r : Report) (signature : String) : Option TestResult :=
  r.results.reverse.find? (·.target.signature == signature)

/-- The error of the test with the given signature. -/
def error? (r : Report) (signature : String) : Option AnalysisError :=
  r.errors.reverse.find? (·.target.signature == signature)

/-- The violation with the given index of the test with the given
signature. -/
def violation? (r : Report) (signature : String) (index : Nat) : Option Violation :=
  r.results.reverse.findSome? fun result =>
    if result.target.signature == signature then result.violations[index]? else none

/-- The lowest nodes of a result: its violations, or the test itself. -/
def resultLeaves (result : TestResult) : List ReportNode :=
  let signature := result.target.signature
  if result.violations.isEmpty then [.test signature]
  else (List.range result.violations.length).map (.violation signature)

/-- The lowest nodes of a report: those of its results and its errors, or
the assembly. -/
def leaves (r : Report) : List ReportNode :=
  let leaves := r.results.flatMap resultLeaves ++
    r.errors.map fun e => .test e.target.signature
  if leaves.isEmpty then [.assembly r.assembly] else leaves

/-- The test of a violation. -/
def testOf : ReportNode → ReportNode
  | .violation signature _ => .test signature
  | n => n

/-- The test could not be analyzed. -/
def hasFailed (r : Report) : ReportNode → Bool
  | .test signature => (r.error? signature).isSome
  | _ => false

/-- The declaring type of a test. -/
def typeOf (r : Report) : ReportNode → ReportNode
  | .test signature => .type (((r.result? signature).map (·.target.type)).getD "")
  | n => n

/-- How the nodes of a report are grouped. -/
def grouper (r : Report) : Grouper ReportNode :=
  let root : ReportNode := .assembly r.assembly
  let b : Grouper ReportNode := { tag := ReportNode.kind }
  let b := b.otherwise "violation" testOf
  let b := b.whenAs "test" r.hasFailed fun _ => .failed
  let b := b.otherwise "test" r.typeOf
  let b := b.otherwise "type" fun _ => root
  b.otherwise "failed" fun _ => root

/-- The tree of a report. -/
def tree (r : Report) : Except (TreeError ReportNode) (Digraph ReportNode) :=
  r.grouper.build r.leaves

end Report

end SmellCheck
