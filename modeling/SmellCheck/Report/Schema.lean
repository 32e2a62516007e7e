import SmellCheck.Json.Value
/-!
# The schema of JSON reports

What the JSON form of a report looks like, as a JSON schema. Objects of
atoms without a description are written on one line, and so are arrays.
-/

namespace SmellCheck

/-- A description of JSON values. A description in words may be empty. -/
inductive Schema where
  /-- The schema that is defined under a name. -/
  | ref (name : String)
  | text (description : String)
  | oneOf (choices : List String)
  /-- A text that a regular expression describes. -/
  | pattern (regex description : String)
  | integer (minimum : Option Int) (description : String)
  | boolean (description : String)
  | array (items : Schema) (description : String)
  | object (required : List String) (members : List (String × Schema))
  /-- An object with integers under any keys that a schema admits. -/
  | counts (keys : Schema)

namespace Schema

/-- The schema of type `type` with further members and a description. -/
def typed (type : String) (members : List (String × JsonValue)) (description : String) :
    JsonValue :=
  .object
    (("type", .string type) :: members ++
      if description = "" then [] else [("description", .string description)])

/-- A reference to a definition. -/
def refJson (name : String) : JsonValue :=
  .object [("$ref", .string ("#/$defs/" ++ name))]

mutual

/-- A schema as JSON. -/
def toJson : Schema → JsonValue
  | ref name => refJson name
  | text description => typed "string" [] description
  | oneOf choices => typed "string" [("enum", .strings choices)] ""
  | pattern regex description => typed "string" [("pattern", .string regex)] description
  | integer minimum description =>
    typed "integer" (minimum.toList.map fun i => ("minimum", .int i)) description
  | boolean description => typed "boolean" [] description
  | array items description => typed "array" [("items", items.toJson)] description
  | object required members =>
    typed "object"
      [("required", .strings required), ("properties", .object (membersJson members))] ""
  | counts keys =>
    typed "object"
      [("propertyNames", keys.toJson), ("additionalProperties", typed "integer" [] "")] ""

/-- The schemas of members as JSON. -/
def membersJson : List (String × Schema) → List (String × JsonValue)
  | [] => []
  | (key, schema) :: members => (key, schema.toJson) :: membersJson members

end

/-! ## The schema of reports -/

/-- The members of a report. -/
def reportMembers : List (String × Schema) :=
  [("version", text "Schema version (semver)"),
   ("assembly", text "Name of the analyzed assembly"),
   ("results", array (ref "TestResult") ""),
   ("errors", array (ref "AnalysisError") ""),
   ("summary", ref "Summary"),
   ("metadata", ref "Metadata")]

/-- What a result has to be. -/
def testResult : Schema :=
  object ["target", "paths", "assertions", "violations"]
    [("target", ref "TestTarget"),
     ("paths", integer (some 0) "Number of entry-to-exit instruction paths"),
     ("assertions", integer (some 0) "Number of distinct assertion call sites"),
     ("violations", array (ref "Violation") ""),
     ("omitted_violations",
       integer (some 1) "Violations of this test dropped by --max-violations")]

/-- What a test has to be. -/
def testTarget : Schema :=
  object ["assembly", "type", "method", "signature"]
    [("assembly", text ""),
     ("type", text "Full name of the declaring type"),
     ("method", text ""),
     ("signature", text "Full method signature"),
     ("location", text "Source position (file:line) of the first sequence point")]

/-- What a violation has to be. -/
def violation : Schema :=
  object ["id", "rule", "severity", "location", "message"]
    [("id", pattern "^ts-[0-9a-f]\x7b8\x7d$" "Stable identifier (ts-XXXXXXXX)"),
     ("rule", ref "Rule"),
     ("severity", ref "Severity"),
     ("location", text "Source position or instruction label"),
     ("message", text "")]

/-- What an error has to be. -/
def analysisError : Schema :=
  object ["target", "message"] [("target", ref "TestTarget"), ("message", text "")]

/-- What a summary has to be. -/
def summary : Schema :=
  object ["total_tests", "clean_tests", "failed", "total_violations", "by_rule", "by_severity"]
    [("total_tests", integer (some 0) ""),
     ("clean_tests", integer (some 0) ""),
     ("failed", integer (some 0) ""),
     ("total_violations", integer (some 0) ""),
     ("by_rule", counts (ref "Rule")),
     ("by_severity", counts (ref "Severity")),
     ("truncated", boolean "True when violations were capped by --max-violations")]

/-- What metadata has to be. -/
def metadata : Schema :=
  object ["run_id", "testsmell_version", "go_version", "duration_ms", "warnings"]
    [("run_id", text "Unique identifier of the analysis run (UUID)"),
     ("testsmell_version", text ""),
     ("go_version", text ""),
     ("duration_ms", integer none "Analysis duration in milliseconds"),
     ("timestamp", text "Analysis start time (RFC 3339)"),
     ("warnings", array (text "") "Analysis warnings, if any")]

/-- The definitions that schemas refer to. -/
def definitions : List (String × Schema) :=
  [("Rule", oneOf ["no_asserts", "multiple_asserts", "conditional_logic", "computed_expected"]),
   ("Severity", oneOf ["error", "warning", "info"]),
   ("TestResult", testResult),
   ("TestTarget", testTarget),
   ("Violation", violation),
   ("AnalysisError", analysisError),
   ("Summary", summary),
   ("Metadata", metadata)]

/-- The members that a report has to have. -/
def reportRequired : List String :=
  reportMembers.map (·.1)

/-- The schema of reports with its definitions. -/
def reportJson : JsonValue :=
  .object
    [("$schema", .string "https://json-schema.org/draft/2020-12/schema"),
     ("$id",
       .string "https://github.com/unbound-force/testsmell/analysis-report.schema.json"),
     ("title", .string "testsmell Analysis Report"),
     ("description", .string "Output schema for testsmell analyze --format=json"),
     ("type", .string "object"),
     ("required", .strings reportRequired),
     ("properties", .object (membersJson reportMembers)),
     ("$defs", .object (membersJson definitions))]

/-! ## Layout -/

/-- The value is no collection. -/
def isAtom : JsonValue → Bool
  | .array _ | .object _ => false
  | _ => true

/-- The members stand on one line. -/
def onOneLine (members : List (String × JsonValue)) : Bool :=
  members.all fun (key, value) => isAtom value && key != "description"

mutual

/-- The written form of a schema, of which all lines but the first have
the indent. -/
def layOut (indent : String) : JsonValue → String
  | .array items => "[" ++ ", ".intercalate (items.map JsonValue.atomText) ++ "]"
  | .object members =>
    let texts := layOutMembers (indent ++ "  ") members
    if onOneLine members then "\x7b " ++ ", ".intercalate texts ++ " \x7d"
    else JsonValue.bracketed "\x7b" "\x7d" indent texts
  | atom => atom.atomText

/-- The written forms of the members of a schema. -/
def layOutMembers (indent : String) : List (String × JsonValue) → List String
  | [] => []
  | (key, value) :: members =>
    (JsonValue.stringText key ++ ": " ++ layOut indent value) :: layOutMembers indent members

end

/-- The schema of reports as text. -/
def reportText : String :=
  layOut "" reportJson

end Schema

end SmellCheck
