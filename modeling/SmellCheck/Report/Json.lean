import SmellCheck.Json.Value
import SmellCheck.Report.Basic
import SmellCheck.Report.Timestamp
/-!
# Reports as JSON

The members of a report in a fixed order. Members that say nothing, such
as a source place that is not known, are left out. A collection that is
left out of a report is null, and so a report is written with empty
collections in the place of those that are left out.
-/

namespace SmellCheck

/-- The version of the layout. -/
def reportLayoutVersion : String := "1.0.0"

/-- A member that is there only under a condition. -/
def memberIf (present : Bool) (key : String) (value : JsonValue) : List (String × JsonValue) :=
  if present then [(key, value)] else []

/-- A collection as JSON; null if it is left out. -/
def collectionOrNull {α : Type} (encode : α → JsonValue) : Option α → JsonValue
  | some collection => encode collection
  | none => .null

/-- Items as JSON. -/
def itemsToJson {α : Type} (encode : α → JsonValue) (items : List α) : JsonValue :=
  .array (items.map encode)

namespace TestTarget

/-- A test as JSON. -/
def toJson (t : TestTarget) : JsonValue :=
  .object
    ([("assembly", .string t.assembly), ("type", .string t.type), ("method", .string t.method),
      ("signature", .string t.signature)] ++
     memberIf (t.location != "") "location" (.string t.location))

end TestTarget

namespace Violation

/-- A violation as JSON. -/
def toJson (v : Violation) : JsonValue :=
  .object
    [("id", .string v.id), ("rule", .string v.rule), ("severity", .string v.severity),
     ("location", .string v.location), ("message", .string v.message)]

end Violation

namespace TestResult

/-- A result as JSON. -/
def toJson (r : TestResult) : JsonValue :=
  .object
    ([("target", r.target.toJson), ("paths", .int r.paths), ("assertions", .int r.assertions),
      ("violations", collectionOrNull (itemsToJson Violation.toJson) r.violations?)] ++
     memberIf (r.omitted != 0) "omitted_violations" (.int r.omitted))

/-- The result with its violations listed, if only as an empty list. -/
def filled (r : TestResult) : TestResult :=
  { r with violations? := some r.violations }

end TestResult

namespace AnalysisError

/-- An error as JSON. -/
def toJson (e : AnalysisError) : JsonValue :=
  .object [("target", e.target.toJson), ("message", .string e.message)]

end AnalysisError

namespace Tally

/-- Counts as JSON, in the order of the names. -/
def toJson (t : Tally) : JsonValue :=
  .object (t.sorted.map fun (name, count) => (name, .int count))

end Tally

namespace Summary

/-- A summary as JSON. -/
def toJson (s : Summary) : JsonValue :=
  .object
    ([("total_tests", .int s.totalTests), ("clean_tests", .int s.cleanTests),
      ("failed", .int s.failed), ("total_violations", .int s.totalViolations),
      ("by_rule", collectionOrNull Tally.toJson s.byRule?),
      ("by_severity", collectionOrNull Tally.toJson s.bySeverity?)] ++
     memberIf s.truncated "truncated" (.bool true))

/-- The summary with its tallies, if only as empty ones. -/
def filled (s : Summary) : Summary :=
  { s with byRule? := some s.byRule, bySeverity? := some s.bySeverity }

end Summary

namespace Metadata

/-- The duration in milliseconds, cut toward zero. -/
def milliseconds (m : Metadata) : Int :=
  Int.tdiv m.duration 1000000

/-- Metadata as JSON. -/
def toJson (m : Metadata) : JsonValue :=
  .object
    ([("run_id", .string m.runId), ("testsmell_version", .string m.toolVersion),
      ("go_version", .string m.runtimeVersion),
      ("warnings", collectionOrNull JsonValue.strings m.warnings?),
      ("duration_ms", .int m.milliseconds)] ++
     memberIf (m.startedAt != unknownTime) "timestamp" (.string (timestampText m.startedAt)))

/-- The metadata with its warnings listed, if only as an empty list. -/
def filled (m : Metadata) : Metadata :=
  { m with warnings? := some m.warnings }

end Metadata

namespace Report

/-- The members of a report, with null for what is left out. -/
def members (r : Report) : List (String × JsonValue) :=
  [("assembly", .string r.assembly),
   ("results", collectionOrNull (itemsToJson TestResult.toJson) r.results?),
   ("errors", collectionOrNull (itemsToJson AnalysisError.toJson) r.errors?),
   ("summary", r.summary.toJson), ("metadata", r.metadata.toJson)]

/-- The report with empty collections in the place of those that are left
out. -/
def filled (r : Report) : Report :=
  { r with
    results? := some (r.results.map TestResult.filled)
    errors? := some r.errors
    summary := r.summary.filled
    metadata := r.metadata.filled }

/-- A report as JSON, with nothing left out. -/
def toJson (r : Report) : JsonValue :=
  .object (("version", .string reportLayoutVersion) :: r.filled.members)

/-- A report as JSON text. -/
def jsonText (r : Report) : String :=
  r.toJson.indented "" ++ "\n"

end Report

end SmellCheck
