import SmellCheck.Report.Outline
import SmellCheck.Report.Tree
import SmellCheck.Smell.Rule
import SmellCheck.Text.Numeral
/-!
# Reports as text

A report for reading: the tree of tests and violations, a table of the
rules, the warnings and a line of totals.
-/

namespace SmellCheck

/-- What the text of a report shows. -/
structure TextOptions where
  /-- Show the numbers of paths and assertions of each test. -/
  verbose : Bool := false
  /-- Leave out tests without violations. -/
  hideClean : Bool := false
  deriving DecidableEq

namespace Report

/-! ## The tree -/

/-- The label of a test that was analyzed. -/
def testLabel (o : TextOptions) (result : TestResult) : String :=
  let target := result.target
  target.method
    ++ (if target.location = "" then "" else " " ++ Text.block target.location)
    ++ (if o.verbose then
        " (" ++ Text.decimal result.paths ++ " path(s), " ++ Text.decimal result.assertions
          ++ " assertion(s))"
      else "")
    ++ (if 0 < result.omitted then
        " (" ++ Text.decimal result.omitted ++ " more violation(s) not shown)"
      else "")

/-- The line of a test that could not be analyzed. -/
def errorLabel (e : AnalysisError) : String :=
  e.target.qualifiedName ++ " " ++ Text.block e.message

/-- The line of a violation. -/
def violationLabel (v : Violation) : String :=
  Text.block v.severity ++ " " ++ v.rule ++ " " ++ Text.block v.location ++ " " ++ v.message

/-- The violation that a node stands for, as an item. -/
def violationItem (r : Report) (n : ReportNode) : Outline :=
  match n with
  | .violation signature index =>
    .leaf (violationLabel ((r.violation? signature index).getD ⟨"", "", "", "", ""⟩))
  | n => .leaf n.key

/-- The test with the given signature and the nodes below it, as an item;
`none` if it is not shown. -/
def testItem? (r : Report) (o : TextOptions) (signature : String) (below : List ReportNode) :
    Option Outline :=
  match r.error? signature, r.result? signature with
  | some e, _ => some (.leaf (errorLabel e))
  | none, none => none
  | none, some result =>
    let label := testLabel o result
    if !below.isEmpty then
      some (.branch label (Outline.ofItems (below.map r.violationItem)))
    else if 0 < result.omitted then some (.leaf label)
    else if o.hideClean then none
    else some (.leaf (label ++ " clean"))

/-- The items of the tests among nodes. -/
def testItems (r : Report) (o : TextOptions) (g : Digraph ReportNode) (nodes : List ReportNode) :
    List Outline :=
  Outline.ofItems (nodes.filterMap fun n => r.testItem? o n.key (g.headsOf n))

/-- A node right below the assembly with everything below it, as an item;
`none` if nothing below it is shown. -/
def groupItem? (r : Report) (o : TextOptions) (g : Digraph ReportNode) (n : ReportNode) :
    Option Outline :=
  let label := match n with
    | .failed => "could not analyze"
    | n => Text.block n.key
  match r.testItems o g (g.headsOf n) with
  | [] => none
  | items => some (.branch label items)

/-- The tree of a report as text. -/
def treeText (r : Report) (o : TextOptions) (g : Digraph ReportNode) : String :=
  Outline.text (Text.block g.root.key)
    (Outline.ofItems ((g.headsOf g.root).filterMap (r.groupItem? o g)))

/-! ## The rules -/

/-- The columns of the table, with the lines between and around its
cells. -/
def tableColumns : Nat := 40

/-- Gives columns one by one to the narrower of two cells, or to the first
of equal ones. -/
def widen : (columns : Nat) → Nat × Nat → Nat × Nat
  | 0, widths => widths
  | columns + 1, (first, second) =>
    widen columns (if second < first then (first, second + 1) else (first + 1, second))

/-- The columns of the two cells in each row of the table. There is a blank
behind the longest text, and the cells share what is left. -/
def cellWidths (rows : List (String × String)) : Nat × Nat :=
  let first := Text.widest (rows.map (·.1)) + 1
  let second := Text.widest (rows.map (·.2)) + 1
  widen (tableColumns - 3 - (first + second)) (first, second)

/-- A line of the table between its rows. -/
def tableRule (widths : Nat × Nat) (left middle right : String) : String :=
  let dashes (n : Nat) : String := String.ofList (List.replicate n '─')
  left ++ dashes widths.1 ++ middle ++ dashes widths.2 ++ right

/-- A row of the table. -/
def tableRow (widths : Nat × Nat) (row : String × String) : String :=
  "│" ++ Text.padColumns widths.1 row.1 ++ "│" ++ Text.padColumns widths.2 row.2 ++ "│"

/-- How often each rule is violated, as a table. What is too wide for the
table is cut off. -/
def ruleTable (s : Summary) : List String :=
  let header := ("RULE", "VIOLATIONS")
  let rows := Rule.all.map fun rule => (rule.name, Text.decimal (s.byRule.count rule.name))
  let widths := cellWidths (header :: rows)
  let lines := [tableRule widths "┌" "┬" "┐", tableRow widths header,
    tableRule widths "├" "┼" "┤"] ++ rows.map (tableRow widths) ++ [tableRule widths "└" "┴" "┘"]
  lines.map (Text.takeColumns tableColumns)

/-- How many violations there are of each severity. -/
def severityText (s : Summary) : String :=
  let counts := Severity.all.map fun severity => (severity, s.bySeverity.count severity.name)
  ", ".intercalate ((counts.filter fun (_, count) => 0 < count).map fun (severity, count) =>
    severity.name ++ ": " ++ Text.decimal count)

/-- The totals of a report. -/
def totalsText (s : Summary) : String :=
  Text.decimal s.totalTests ++ " test(s) analyzed, " ++ Text.decimal s.cleanTests ++ " clean, "
    ++ Text.decimal s.failed ++ " failed, " ++ Text.decimal s.totalViolations ++ " violation(s)"

/-! ## The report -/

/-- The lines of a report whose tree is given. Items that span several
lines are one line here. -/
def textLines (r : Report) (o : TextOptions) (g : Digraph ReportNode) : List String :=
  let s := r.summary
  [Text.block ("=== " ++ r.assembly ++ " ==="), "", r.treeText o g] ++
  (if 0 < s.totalViolations then
    "" :: ruleTable s ++ ["    Severity: " ++ severityText s]
  else []) ++
  r.metadata.warnings.map (fun warning => Text.block ("    warning: " ++ warning)) ++
  ["", totalsText s]

/-- The wording of a report that has no tree. -/
def treeErrorText (e : TreeError ReportNode) : String :=
  "building report tree: " ++ e.message ReportNode.text

/-- The text of a report. -/
def text (r : Report) (o : TextOptions) : Except (TreeError ReportNode) String :=
  r.tree.map fun g => String.join ((r.textLines o g).map (· ++ "\n"))

end Report

end SmellCheck
