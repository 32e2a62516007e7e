import SmellCheck.Hash.Sha256
import SmellCheck.Text.Numeral
/-!
# Reports

The outcome of an analysis: a result for each test, an error for each
test that could not be analyzed, and a summary. A report names rules and
severities by text and its numbers may be any integers, so that it can
also be written down by hand. One that is written down by hand may leave
out any of its collections, and then the collection counts as empty.

A violation has an identifier that stays the same from run to run. It is
the beginning of the digest of the assembly, the test, the rule and the
instruction.
-/

namespace SmellCheck

/-- Which test something is about. -/
structure TestTarget where
  assembly : String
  type : String
  method : String
  signature : String
  /-- The first source place of the test; empty if there is none. -/
  location : String
  deriving DecidableEq

/-- The declaring type and the name of the test. -/
def TestTarget.qualifiedName (t : TestTarget) : String :=
  t.type ++ "::" ++ t.method

/-- A smell found in a test. -/
structure Violation where
  id : String
  rule : String
  severity : String
  location : String
  message : String
  deriving DecidableEq

/-- The text whose digest identifies a violation. -/
def violationKey (assembly test rule label : String) : String :=
  assembly ++ ":" ++ test ++ ":" ++ rule ++ ":" ++ label

/-- Two hexadecimal digits for each byte. -/
def hexBytes (bs : Bytes) : String :=
  String.ofList (bs.flatMap fun b => Text.padZeros 2 (Text.hexDigits b.toNat))

/-- The identifier of a violation: eight hexadecimal digits of the digest
of its key. -/
def violationId (assembly test rule label : String) : String :=
  let key := violationKey assembly test rule label
  "ts-" ++ hexBytes ((Sha256.digest (Text.encodeUtf8 key.toList)).take 4)

/-- What was found about one test. -/
structure TestResult where
  target : TestTarget
  paths : Int
  assertions : Int
  /-- The violations; `none` if they are left out. -/
  violations? : Option (List Violation)
  /-- The number of violations that were found and are not listed. -/
  omitted : Int
  deriving DecidableEq

/-- The violations that are listed. -/
def TestResult.violations (r : TestResult) : List Violation :=
  r.violations?.getD []

/-- A test that could not be analyzed. -/
structure AnalysisError where
  target : TestTarget
  message : String
  deriving DecidableEq

/-- Counts by name. -/
abbrev Tally := List (String × Int)

namespace Tally

/-- How often each name occurs. -/
def ofNames (names : List String) : Tally :=
  names.eraseDups.map fun name => (name, (names.count name : Int))

/-- The count of a name; zero if there is none. -/
def count (t : Tally) (name : String) : Int :=
  (t.lookup name).getD 0

/-- The counts by name in the order of the names. -/
def sorted (t : Tally) : Tally :=
  t.mergeSort fun x y => x.1 ≤ y.1

end Tally

/-- The numbers of a report. -/
structure Summary where
  totalTests : Int := 0
  cleanTests : Int := 0
  failed : Int := 0
  totalViolations : Int := 0
  /-- The violations of each rule; `none` if they are left out. -/
  byRule? : Option Tally := none
  /-- The violations of each severity; `none` if they are left out. -/
  bySeverity? : Option Tally := none
  /-- Some violations are not listed. -/
  truncated : Bool := false
  deriving DecidableEq

/-- The number of violations of each rule. -/
def Summary.byRule (s : Summary) : Tally :=
  s.byRule?.getD []

/-- The number of violations of each severity. -/
def Summary.bySeverity (s : Summary) : Tally :=
  s.bySeverity?.getD []

/-- The beginning of year one in seconds since 1970. It stands for a time
that is not known. -/
def unknownTime : Int := -62135596800

/-- When and by what a report was made. -/
structure Metadata where
  runId : String := ""
  toolVersion : String := ""
  runtimeVersion : String := ""
  /-- In seconds since 1970. -/
  startedAt : Int := unknownTime
  /-- In nanoseconds. -/
  duration : Int := 0
  /-- The warnings; `none` if they are left out. -/
  warnings? : Option (List String) := none
  deriving DecidableEq

/-- The warnings. -/
def Metadata.warnings (m : Metadata) : List String :=
  m.warnings?.getD []

/-- The outcome of an analysis. -/
structure Report where
  assembly : String
  /-- The results; `none` if they are left out. -/
  results? : Option (List TestResult)
  /-- The errors; `none` if they are left out. -/
  errors? : Option (List AnalysisError)
  summary : Summary
  metadata : Metadata
  deriving DecidableEq

/-- The results of the tests that were analyzed. -/
def Report.results (r : Report) : List TestResult :=
  r.results?.getD []

/-- The errors of the tests that could not be analyzed. -/
def Report.errors (r : Report) : List AnalysisError :=
  r.errors?.getD []

/-- The numbers of results and errors. -/
def Summary.of (results : List TestResult) (errors : List AnalysisError) : Summary :=
  let violations := results.flatMap (·.violations)
  { totalTests := results.length + errors.length
    cleanTests := (results.filter (·.violations.isEmpty)).length
    failed := errors.length
    totalViolations := violations.length
    byRule? := some (.ofNames (violations.map (·.rule)))
    bySeverity? := some (.ofNames (violations.map (·.severity))) }

end SmellCheck
