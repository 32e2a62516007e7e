import SmellCheck.Report.Basic
import SmellCheck.Smell.Finding
/-!
# Analysis

The rules are applied to each test of an assembly. A test to which they
cannot be applied becomes an error of the report and does not keep the
others from being analyzed. The number of listed violations may be
capped; the summary counts all of them.

A test may also bring the program down (`Assembly.aborts`). A program
that analyzes it has nothing to report.
-/

namespace SmellCheck

/-- The rules to apply, and how many assertions a path may make. -/
structure Checks where
  rules : List Rule
  limit : Nat
  deriving DecidableEq

namespace Checks

/-- All rules, with one assertion for each path. -/
def standard : Checks :=
  ⟨Rule.all, 1⟩

/-- The rules that are enabled, if there is one. The limit is one if it is
given lower. -/
def enabled (enabled : Rule → Bool) (limit : Int) : Option Checks :=
  match Rule.all.filter enabled with
  | [] => none
  | rules => some ⟨rules, (max limit 1).toNat⟩

end Checks

/-- What to analyze and how. -/
structure Options where
  registry : Registry := .builtin
  /-- The checks to apply; the standard ones if `none`. -/
  checks : Option Checks := none
  /-- The name of the severity that violations of a rule have. -/
  severity : Rule → String := fun rule => rule.severity.name
  /-- The full names of the tests to analyze. -/
  accepted : String → Bool := fun _ => true
  /-- The full or bare name of the only test to analyze, if not empty. -/
  test : String := ""
  /-- The most violations to list; no limit unless positive. -/
  maxViolations : Int := 0
  /-- The most tests to analyze at a time; as many as there are processors
  unless positive. -/
  workers : Int := 0
  version : String := ""
  /-- The analysis is called off before its first test. -/
  cancelled : Bool := false

/-- The checks that are applied. -/
def Options.effectiveChecks (o : Options) : Checks :=
  o.checks.getD .standard

/-- Why there is no report. -/
inductive AnalysisFailure where
  | testNotFound (test assembly : String)
  | cancelled (assembly : String)
  deriving DecidableEq

/-- The wording of a failure. -/
def AnalysisFailure.message : AnalysisFailure → String
  | testNotFound test assembly =>
    Text.quoted test ++ " in " ++ assembly ++ ": test not found"
  | cancelled assembly => "analyzing " ++ assembly ++ ": context canceled"

/-- Why a test cannot be analyzed. -/
inductive TestFault where
  | flow (e : FlowError)
  | rule (r : Rule) (e : FlowError)
  deriving DecidableEq

/-- The wording of a fault. -/
def TestFault.message : TestFault → String
  | flow e => e.message
  | rule r e => "rule " ++ r.name ++ ": " ++ e.message

/-- The fault brings the program down. -/
def TestFault.aborts : TestFault → Bool
  | flow e => e.aborts
  | rule _ e => e.aborts

/-! ## One test -/

/-- How a report names a method of an assembly. -/
def Assembly.target (a : Assembly) (m : Method) : TestTarget where
  assembly := a.name
  type := m.signature.owner
  method := m.signature.name
  signature := m.signature.text
  location := (m.place?.map SourcePoint.text).getD ""

/-- A finding as a violation in a report. -/
def TestCase.violation (tc : TestCase) (severity : Rule → String) (f : Finding) : Violation :=
  let rule := f.smell.rule
  let test := (tc.assembly.target tc.method).qualifiedName
  { id := violationId tc.assembly.name test rule.name (tc.body.label f.position)
    rule := rule.name
    severity := severity rule
    location := tc.body.place f.position
    message := f.smell.message }

/-- The findings of the rules in order. -/
def TestCase.findings (tc : TestCase) (checks : Checks) : Except TestFault (List Finding) :=
  checks.rules.flatMapM fun rule => (tc.check checks.limit rule).mapError (.rule rule)

/-- The result of applying the rules to a method of an assembly. -/
def Assembly.examine (a : Assembly) (o : Options) (m : Method) : Except TestFault TestResult := do
  let tc ← (TestCase.ofMethod a o.registry m).mapError .flow
  let findings ← tc.findings o.effectiveChecks
  return { target := a.target m
           paths := tc.paths.length
           assertions := tc.assertionSites.length
           violations? := some (findings.map (tc.violation o.severity))
           omitted := 0 }

/-- Analyzing the test brings the program down. -/
def Assembly.aborts (a : Assembly) (o : Options) (m : Method) : Bool :=
  match a.examine o m with
  | .ok _ => false
  | .error fault => fault.aborts

/-- The result for a test, or the error of the report. -/
def Assembly.analyzeTest (a : Assembly) (o : Options) (m : Method) :
    Except AnalysisError TestResult :=
  (a.examine o m).mapError fun fault => ⟨a.target m, fault.message⟩

/-! ## All tests -/

/-- The results among outcomes. -/
def resultsOf (outcomes : List (Except AnalysisError TestResult)) : List TestResult :=
  outcomes.filterMap fun
    | .ok r => some r
    | .error _ => none

/-- The errors among outcomes. -/
def errorsOf (outcomes : List (Except AnalysisError TestResult)) : List AnalysisError :=
  outcomes.filterMap fun
    | .ok _ => none
    | .error e => some e

/-- The result with its first `room` violations and the number of the
others, and whether there are others. -/
def TestResult.cap (room : Nat) (r : TestResult) : TestResult × Bool :=
  if room < r.violations.length then
    ({ r with
       violations? := some (r.violations.take room)
       omitted := (r.violations.length - room : Nat) }, true)
  else (r, false)

/-- Lists the first `room` violations of all results, counts the others,
and says whether there are any. The room is what the results before have
left of it. -/
def capViolations : (room : Nat) → List TestResult → List TestResult × Bool
  | _, [] => ([], false)
  | room, r :: results =>
    let first := r.cap room
    let others := capViolations (room - first.1.violations.length) results
    (first.1 :: others.1, first.2 || others.2)

/-- Caps the violations of results at a limit, if that is positive. -/
def limitViolations (limit : Int) (results : List TestResult) : List TestResult × Bool :=
  if limit ≤ 0 then (results, false) else capViolations limit.toNat results

/-- The tests of an assembly that are to be analyzed. -/
def Assembly.selectedTests (a : Assembly) (o : Options) : List Method :=
  let tests := a.tests o.registry o.accepted
  if o.test = "" then tests
  else tests.filter fun m => m.signature.name == o.test || m.fullName == o.test

/-- The report of the outcomes of an assembly's tests. -/
def Report.ofOutcomes (assembly : String) (o : Options)
    (outcomes : List (Except AnalysisError TestResult)) : Report :=
  let results := resultsOf outcomes
  let errors := errorsOf outcomes
  let listed := limitViolations o.maxViolations results
  { assembly
    results? := some listed.1
    errors? := some errors
    summary := { Summary.of results errors with truncated := listed.2 }
    metadata :=
      { toolVersion := if o.version = "" then "dev" else o.version
        warnings? := some (if listed.2 then
          ["violations truncated to " ++ Text.decimal o.maxViolations] else []) } }

/-- The report on the tests of an assembly, none of which brings the
program down. -/
def Assembly.analyze (a : Assembly) (o : Options) : Except AnalysisFailure Report :=
  let tests := a.selectedTests o
  if o.test ≠ "" ∧ tests.isEmpty then .error (.testNotFound o.test a.name)
  else if o.cancelled ∧ !tests.isEmpty then .error (.cancelled a.name)
  else .ok (.ofOutcomes a.name o (tests.map (a.analyzeTest o)))

end SmellCheck
