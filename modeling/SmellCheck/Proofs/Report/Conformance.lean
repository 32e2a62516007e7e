import SmellCheck.CommandLine.Run
import SmellCheck.Proofs.Analysis.Cap
import SmellCheck.Proofs.Assembly.Load
import SmellCheck.Proofs.Json.Unambiguous
import SmellCheck.Proofs.Report.Schema
import SmellCheck.Proofs.Settings.Applied
/-!
# Reports and their schema

A report that is written as JSON is valid against the published schema if
its violations have identifiers of the right form and name rules and
severities, and if its numbers are not negative (`Report.Conforms`); of
its collections any may be left out, as they are filled when it is
written. Each of these facts has a place of its own: identifiers are cut
from digests, rules come from findings, severities from settings that have
no problems, tallies have no names but those of violations, and a cap
counts what it leaves out. An analysis puts them together, so every report
that it gives under accepted settings conforms, whatever else it was told
to do.
-/

namespace SmellCheck

open JsonValue

/-! ## What a report has to be like -/

/-- The violation has an identifier of the right form and names a rule and
a severity. -/
structure Violation.Conforms (v : Violation) : Prop where
  id_match : IsMatch "^ts-[0-9a-f]\x7b8\x7d$" v.id
  exists_rule : ∃ rule : Rule, v.rule = rule.name
  exists_severity : ∃ severity : Severity, v.severity = severity.name

/-- The violations of the result conform, and its numbers are not
negative. -/
structure TestResult.Conforms (r : TestResult) : Prop where
  paths_nonneg : 0 ≤ r.paths
  assertions_nonneg : 0 ≤ r.assertions
  omitted_nonneg : 0 ≤ r.omitted
  violations : ∀ v ∈ r.violations, v.Conforms

/-- The numbers of the summary are not negative, and its tallies are of
rules and of severities. -/
structure Summary.Conforms (s : Summary) : Prop where
  totalTests_nonneg : 0 ≤ s.totalTests
  cleanTests_nonneg : 0 ≤ s.cleanTests
  failed_nonneg : 0 ≤ s.failed
  totalViolations_nonneg : 0 ≤ s.totalViolations
  byRule : ∀ entry ∈ s.byRule, ∃ rule : Rule, entry.1 = rule.name
  bySeverity : ∀ entry ∈ s.bySeverity, ∃ severity : Severity, entry.1 = severity.name

/-- **The report conforms to the schema.** -/
structure Report.Conforms (r : Report) : Prop where
  results : ∀ result ∈ r.results, result.Conforms
  summary : r.summary.Conforms

/-! ## Conforming reports are valid -/

section Valid

open Schema

theorem mem_memberIf {present : Bool} {key : String} {value : JsonValue}
    {member : String × JsonValue} (h : member ∈ memberIf present key value) :
    present = true ∧ member = (key, value) := by
  rw [memberIf] at h
  split at h
  · rename_i hpresent
    exact ⟨hpresent, List.mem_singleton.1 h⟩
  · exact absurd h List.not_mem_nil

theorem valid_rule {name : String} (h : ∃ rule : Rule, name = rule.name) :
    Valid reportJson (ref "Rule").toJson (.string name) := by
  obtain ⟨rule, rfl⟩ := h
  refine valid_refJson rfl (valid_oneOf ?_)
  cases rule <;> simp [Rule.name]

theorem valid_severity {name : String} (h : ∃ severity : Severity, name = severity.name) :
    Valid reportJson (ref "Severity").toJson (.string name) := by
  obtain ⟨severity, rfl⟩ := h
  refine valid_refJson rfl (valid_oneOf ?_)
  cases severity <;> simp [Severity.name]

theorem TestTarget.valid_toJson (t : TestTarget) :
    Valid reportJson (ref "TestTarget").toJson t.toJson := by
  refine valid_refJson rfl (valid_object (by decide) (by simp) (List.forall_mem_append.2 ⟨?_, ?_⟩))
  · simp only [List.forall_mem_cons]
    exact ⟨⟨_, rfl, valid_text _ _⟩, ⟨_, rfl, valid_text _ _⟩, ⟨_, rfl, valid_text _ _⟩,
      ⟨_, rfl, valid_text _ _⟩, List.forall_mem_nil _⟩
  · intro member hmember
    obtain ⟨-, rfl⟩ := mem_memberIf hmember
    exact ⟨_, rfl, valid_text _ _⟩

theorem Violation.Conforms.valid_toJson {v : Violation} (h : v.Conforms) :
    Valid reportJson (ref "Violation").toJson v.toJson := by
  refine valid_refJson rfl (valid_object (by decide) (by simp) ?_)
  simp only [List.forall_mem_cons]
  exact ⟨⟨_, rfl, valid_patternJson h.id_match⟩, ⟨_, rfl, valid_rule h.exists_rule⟩,
    ⟨_, rfl, valid_severity h.exists_severity⟩, ⟨_, rfl, valid_text _ _⟩,
    ⟨_, rfl, valid_text _ _⟩, List.forall_mem_nil _⟩

/-- A count that is not negative. -/
theorem valid_count {description : String} {i : Int} (h : 0 ≤ i) :
    Valid reportJson (integer (some 0) description).toJson (.int i) :=
  valid_integer fun least hleast => by rwa [← Option.some.inj hleast]

/-- What is omitted is left out if it is nothing, and else is at least
one. -/
theorem TestResult.Conforms.valid_toJson {r : TestResult} (h : r.Conforms) :
    Valid reportJson (ref "TestResult").toJson r.filled.toJson := by
  refine valid_refJson rfl (valid_object (by decide) (by simp) (List.forall_mem_append.2 ⟨?_, ?_⟩))
  · simp only [List.forall_mem_cons]
    refine ⟨⟨_, rfl, r.target.valid_toJson⟩, ⟨_, rfl, valid_count h.paths_nonneg⟩,
      ⟨_, rfl, valid_count h.assertions_nonneg⟩, ⟨_, rfl, valid_array fun value hvalue => ?_⟩,
      List.forall_mem_nil _⟩
    obtain ⟨v, hv, rfl⟩ := List.mem_map.1 hvalue
    exact (h.violations v hv).valid_toJson
  · intro member hmember
    obtain ⟨hsome, rfl⟩ := mem_memberIf hmember
    refine ⟨_, rfl, valid_integer fun least hleast => ?_⟩
    -- zero would have been left out
    have hne : r.omitted ≠ 0 := bne_iff_ne.1 hsome
    have hnonneg := h.omitted_nonneg
    have hpos : 1 ≤ r.omitted := by omega
    obtain rfl := Option.some.inj hleast
    exact hpos

theorem AnalysisError.valid_toJson (e : AnalysisError) :
    Valid reportJson (ref "AnalysisError").toJson e.toJson := by
  refine valid_refJson rfl (valid_object (by decide) (by simp) ?_)
  simp only [List.forall_mem_cons]
  exact ⟨⟨_, rfl, e.target.valid_toJson⟩, ⟨_, rfl, valid_text _ _⟩, List.forall_mem_nil _⟩

/-- A tally whose names are admitted. -/
theorem Tally.valid_toJson {t : Tally} {keys : Schema}
    (h : ∀ entry ∈ t, Valid reportJson keys.toJson (.string entry.1)) :
    Valid reportJson (counts keys).toJson t.toJson := by
  refine valid_counts fun entry hentry => h entry ?_
  exact List.mem_mergeSort.1 hentry

theorem Summary.Conforms.valid_toJson {s : Summary} (h : s.Conforms) :
    Valid reportJson (ref "Summary").toJson s.filled.toJson := by
  refine valid_refJson rfl (valid_object (by decide) (by simp) (List.forall_mem_append.2 ⟨?_, ?_⟩))
  · simp only [List.forall_mem_cons]
    exact ⟨⟨_, rfl, valid_count h.totalTests_nonneg⟩, ⟨_, rfl, valid_count h.cleanTests_nonneg⟩,
      ⟨_, rfl, valid_count h.failed_nonneg⟩, ⟨_, rfl, valid_count h.totalViolations_nonneg⟩,
      ⟨_, rfl, Tally.valid_toJson fun entry hentry => valid_rule (h.byRule entry hentry)⟩,
      ⟨_, rfl, Tally.valid_toJson fun entry hentry => valid_severity (h.bySeverity entry hentry)⟩,
      List.forall_mem_nil _⟩
  · intro member hmember
    obtain ⟨-, rfl⟩ := mem_memberIf hmember
    exact ⟨_, rfl, valid_boolean _ _⟩

theorem Metadata.valid_toJson (m : Metadata) :
    Valid reportJson (ref "Metadata").toJson m.filled.toJson := by
  refine valid_refJson rfl (valid_object (by decide) (by simp) (List.forall_mem_append.2 ⟨?_, ?_⟩))
  · simp only [List.forall_mem_cons]
    refine ⟨⟨_, rfl, valid_text _ _⟩, ⟨_, rfl, valid_text _ _⟩, ⟨_, rfl, valid_text _ _⟩,
      ⟨_, rfl, valid_array fun value hvalue => ?_⟩,
      ⟨_, rfl, valid_integer fun least hleast => by cases hleast⟩, List.forall_mem_nil _⟩
    obtain ⟨warning, -, rfl⟩ := List.mem_map.1 hvalue
    exact valid_text _ _
  · intro member hmember
    obtain ⟨-, rfl⟩ := mem_memberIf hmember
    exact ⟨_, rfl, valid_text _ _⟩

/-- **A report that conforms is valid**, whatever collections are left out
of it. -/
theorem Report.Conforms.valid_toJson {r : Report} (h : r.Conforms) :
    Valid reportJson reportJson r.toJson := by
  refine valid_reportJson (by simp [reportRequired, reportMembers, members]) ?_
  simp only [members, List.forall_mem_cons]
  refine ⟨⟨_, rfl, valid_text _ _⟩, ⟨_, rfl, valid_text _ _⟩,
    ⟨_, rfl, valid_array fun value hvalue => ?_⟩, ⟨_, rfl, valid_array fun value hvalue => ?_⟩,
    ⟨_, rfl, h.summary.valid_toJson⟩, ⟨_, rfl, r.metadata.valid_toJson⟩, List.forall_mem_nil _⟩
  · obtain ⟨filled, hfilled, rfl⟩ := List.mem_map.1 hvalue
    obtain ⟨result, hresult, rfl⟩ := List.mem_map.1 hfilled
    exact (h.results result hresult).valid_toJson
  · obtain ⟨e, -, rfl⟩ := List.mem_map.1 hvalue
    exact e.valid_toJson

end Valid

/-! ## Identifiers -/

/-- A digest begins with the bytes of a word. -/
theorem Sha256.exists_take_digest (message : Bytes) :
    ∃ w, (digest message).take 4 = ofWord w := by
  simp only [digest, List.flatMap_cons]
  exact ⟨_, List.take_left' rfl⟩

/-- **Each byte gives two hexadecimal digits.** -/
theorem toList_hexBytes (bs : Bytes) : (hexBytes bs).toList.length = 2 * bs.length ∧
    ∀ c ∈ (hexBytes bs).toList, c ∈ "0123456789abcdef".toList := by
  rw [hexBytes, String.toList_ofList]
  induction bs with
  | nil => exact ⟨rfl, List.forall_mem_nil _⟩
  | cons b bs ih =>
    have hbyte : b.toNat < Nat.pow 16 2 := b.toNat_lt
    rw [List.flatMap_cons, List.length_append, Text.length_padZeros (by omega) hbyte, ih.1,
      List.length_cons]
    refine ⟨by omega, List.forall_mem_append.2 ⟨fun c hc => ?_, ih.2⟩⟩
    exact Text.mem_of_mem_padZeros hc

/-- What an identifier is made up of. -/
def identifierParts : List Part :=
  [⟨[('t', 't')], 1⟩, ⟨[('s', 's')], 1⟩, ⟨[('-', '-')], 1⟩, ⟨[('0', '9'), ('a', 'f')], 8⟩]

/-- **An identifier is as the schema says.** -/
theorem isMatch_violationId (assembly test rule label : String) :
    IsMatch "^ts-[0-9a-f]\x7b8\x7d$" (violationId assembly test rule label) := by
  have hhex : ∀ c ∈ "0123456789abcdef".toList,
      ∃ range ∈ [('0', '9'), ('a', 'f')], range.1 ≤ c ∧ c ≤ range.2 :=
    Text.forall_mem_of_all (by decide)
  have hform : PatternForm identifierParts "ts-[0-9a-f]\x7b8\x7d$".toList :=
    .char (by decide) (.char (by decide) (.char (by decide)
      (.chars (by decide) (digitsForm_toDigits 8) .done)))
  refine ⟨_, _, rfl, hform, ?_⟩
  obtain ⟨w, hw⟩ := Sha256.exists_take_digest
    (Text.encodeUtf8 (violationKey assembly test rule label).toList)
  obtain ⟨hlength, hdigits⟩ := toList_hexBytes (Sha256.ofWord w)
  have hself : ∀ d : Char, ∀ c ∈ [d], ∃ range ∈ [(d, d)], range.1 ≤ c ∧ c ≤ range.2 := by
    simp
  have hfits : Fits identifierParts _ := .cons rfl (hself 't') (.cons rfl (hself 's')
    (.cons rfl (hself '-') (.cons hlength (fun c hc => hhex c (hdigits c hc)) .nil)))
  rw [violationId, hw, String.toList_append]
  rwa [List.append_nil] at hfits

/-! ## What an analysis gives -/

/-- **A cap omits no fewer than none**, and adds no violation. -/
theorem TestResult.CutTo.conforms {full cut : TestResult} (h : full.CutTo cut)
    (hfull : full.Conforms) : cut.Conforms := by
  obtain ⟨⟨hviolations, hcut⟩, hcount⟩ := h
  have hlength := hviolations.length_le
  refine ⟨?_, ?_, by omega, fun v hv => hfull.violations v (hviolations.subset hv)⟩
  · rw [← hcut]
    exact hfull.paths_nonneg
  · rw [← hcut]
    exact hfull.assertions_nonneg

/-- The names in a tally are the names that were counted. -/
theorem Tally.mem_of_mem_ofNames {names : List String} {entry : String × Int}
    (h : entry ∈ ofNames names) : entry.1 ∈ names := by
  obtain ⟨name, hname, rfl⟩ := List.mem_map.1 h
  exact List.mem_eraseDups.1 hname

/-- The numbers of results that conform. -/
theorem Summary.conforms_of {results : List TestResult} (errors : List AnalysisError)
    (h : ∀ r ∈ results, r.Conforms) : (Summary.of results errors).Conforms where
  totalTests_nonneg := Int.add_nonneg (Int.natCast_nonneg _) (Int.natCast_nonneg _)
  cleanTests_nonneg := Int.natCast_nonneg _
  failed_nonneg := Int.natCast_nonneg _
  totalViolations_nonneg := Int.natCast_nonneg _
  byRule := by
    intro entry hentry
    obtain ⟨v, hv, hname⟩ := List.mem_map.1 (Tally.mem_of_mem_ofNames hentry)
    obtain ⟨r, hr, hv⟩ := List.mem_flatMap.1 hv
    exact hname ▸ ((h r hr).violations v hv).exists_rule
  bySeverity := by
    intro entry hentry
    obtain ⟨v, hv, hname⟩ := List.mem_map.1 (Tally.mem_of_mem_ofNames hentry)
    obtain ⟨r, hr, hv⟩ := List.mem_flatMap.1 hv
    exact hname ▸ ((h r hr).violations v hv).exists_severity

section Analysis

variable {a : Assembly} {o : Options} {report : Report}
  (hseverity : ∀ rule, ∃ severity : Severity, o.severity rule = severity.name)

include hseverity

/-- What is found about a test conforms. -/
theorem Assembly.conforms_of_analyzeTest {m : Method} {r : TestResult}
    (h : a.analyzeTest o m = .ok r) : r.Conforms := by
  obtain ⟨tc, findings, -, -, rfl⟩ := analyzeTest_eq_ok.1 h
  refine ⟨Int.natCast_nonneg _, Int.natCast_nonneg _, Int.le_refl 0, fun v hv => ?_⟩
  obtain ⟨f, -, rfl⟩ := List.mem_map.1 hv
  exact ⟨isMatch_violationId .., ⟨f.smell.rule, rfl⟩, hseverity f.smell.rule⟩

/-- **Every report of an analysis conforms**, if the severities are some of
the three. -/
theorem Report.conforms_of_analyze (h : a.analyze o = .ok report) : report.Conforms := by
  obtain rfl := Assembly.eq_ofOutcomes_of_analyze h
  have hfull : ∀ r ∈ resultsOf ((a.selectedTests o).map (a.analyzeTest o)), r.Conforms := by
    intro r hr
    obtain ⟨m, -, hm⟩ := exists_mem_of_forall₂ (forall₂_resultsOf (a.analyzeTest o) _) hr
    exact Assembly.conforms_of_analyzeTest hseverity hm
  -- the numbers are those of all that was found, with a cap and without one
  have hsummary := Summary.conforms_of
    (errorsOf ((a.selectedTests o).map (a.analyzeTest o))) hfull
  refine ⟨fun cut hcut => ?_, ⟨hsummary.1, hsummary.2, hsummary.3, hsummary.4, hsummary.5,
    hsummary.6⟩⟩
  obtain ⟨full, hmem, h⟩ := exists_mem_of_forall₂ (forall₂_cutTo_limitViolations
    (a.omitted_of_mem_resultsOf o (a.selectedTests o)) o.maxViolations) hcut
  exact h.conforms (hfull full hmem)

end Analysis

/-- What identifies a run is free. -/
theorem Report.Conforms.stamped {r : Report} (h : r.Conforms) (stamp : RunStamp) :
    (r.stamped stamp).Conforms :=
  ⟨h.results, h.summary⟩

/-- **A report as JSON text writes the report.** -/
theorem Report.isText_jsonText (r : Report) : IsText r.toJson r.jsonText := by
  have hindent : IsBlank "".toList := isBlank_nil
  have hend : IsBlank "\n".toList := Text.forall_mem_of_all (by decide)
  refine ⟨[], _, _, isBlank_nil, form_indented hindent r.toJson, hend, ?_⟩
  rw [jsonText, String.toList_append, List.nil_append]

/-- **Reports are valid against the published schema.** Whatever assembly
is analyzed, under whatever accepted settings, with whatever filter and
cap: if there is a report, then the text that it is written as, with
whatever identifies the run, is a JSON text, and so is the text that is
published as the schema. The value that the one writes is valid against
the value that the other writes. -/
theorem Assembly.analyze_writes_valid_json {s : Settings} (hs : s.problems = []) {o : Options}
    (ho : s.options = .ok o) {a : Assembly} {test version : String} {maxViolations workers : Int}
    {cancelled : Bool} {report : Report}
    (h : a.analyze { o with test, version, maxViolations, workers, cancelled } = .ok report)
    (stamp : RunStamp) :
    IsText Schema.reportJson Schema.reportText ∧
      IsText (report.stamped stamp).toJson (report.stamped stamp).jsonText ∧
      ∀ schema v, IsText schema Schema.reportText → IsText v (report.stamped stamp).jsonText →
        Valid schema schema v := by
  obtain rfl := Settings.options_eq_ok ho
  have hconforms := Report.conforms_of_analyze (Settings.exists_severityOf_eq hs) h
  refine ⟨Schema.isText_reportText, Report.isText_jsonText _, fun schema v hschema hv => ?_⟩
  obtain rfl := Schema.isText_reportText.unique hschema
  obtain rfl := (Report.isText_jsonText _).unique hv
  exact (hconforms.stamped stamp).valid_toJson

/-- Another severity for tests that make no assertion. -/
def mildFile : String := "rules:\n  no_asserts:\n    severity: info\n"

/-- Two tests that make no assertion. -/
def silentDocument : ListingDocument :=
  Assembly.testDocument 0 [("void T::M()", "ret"), ("void T::N()", "ret")]

/-- With room for one violation, which has the severity of the settings,
the second result omits the one that was found about it. -/
theorem Assembly.analyze_writes_valid_json_mildFile :
    ∃ s o a report, Settings.load mildFile = .ok s ∧ s.options = .ok o ∧
      ofDocument silentDocument = .ok a ∧ a.analyze { o with maxViolations := 1 } = .ok report ∧
      (∃ r ∈ report.results, ∃ v, r.violations = [v] ∧ v.rule = "no_asserts" ∧
        v.severity = "info") ∧
      (∃ r ∈ report.results, r.violations = [] ∧ r.omitted = 1) ∧
      IsText (report.stamped {}).toJson (report.stamped {}).jsonText ∧
      Valid Schema.reportJson Schema.reportJson (report.stamped {}).toJson := by
  have hfound : ((Settings.ofChars mildFile.toList).toOption.any fun s =>
      (s.ruleEnabled "no_asserts" && s.severityOf "no_asserts" == "info") &&
      s.options.toOption.any fun o => (ofDocument silentDocument).toOption.any fun a =>
        (a.selectedTests o).length == 2 &&
        (a.selectedTests o).all fun m => ControlFlow.follows m [[]] &&
          ((TestCase.mk a o.registry ⟨m, 0, [(0, [])]⟩).findings o.effectiveChecks).toOption.map
            (·.map (·.smell.rule)) == some [.noAsserts]) = true := by
    delta mildFile
    rw [String.toList_ofList]
    decide +kernel
  rw [← Settings.load_eq_ofChars] at hfound
  simp only [Option.any_eq_true, List.all_eq_true, Bool.and_eq_true, beq_iff_eq,
    toOption_eq_some] at hfound
  obtain ⟨s, hs, ⟨henabled, hinfo⟩, o, ho, a, ha, hlength, hall⟩ := hfound
  obtain ⟨report, hreport⟩ : ∃ report, a.analyze { o with maxViolations := 1 } = .ok report := by
    obtain rfl := Settings.options_eq_ok ho
    exact exists_report rfl (absurd rfl)
  obtain ⟨hschema, htext, hvalid⟩ :=
    analyze_writes_valid_json (Settings.problems_of_load hs) ho hreport {}
  have hsilent : ∀ m ∈ a.selectedTests o, ∃ r,
      a.analyzeTest { o with maxViolations := 1 } m = .ok r ∧
        r.violations.map (·.rule) = [Rule.noAsserts.name] := by
    intro m hm
    obtain ⟨hfollows, hrules⟩ := hall m hm
    exact exists_result_of_follows [(0, [])] (by simp [explore, Adjacency.has, Adjacency.fresh])
      hfollows hrules
  obtain ⟨m, m', htests⟩ := List.length_eq_two.1 hlength
  obtain ⟨r, hr, hrule⟩ := hsilent m (by simp [htests])
  obtain ⟨r', hr', hrule'⟩ := hsilent m' (by simp [htests])
  -- the first result takes all the room
  have hone : r.violations.length = 1 := by simpa using congrArg List.length hrule
  have hone' : r'.violations.length = 1 := by simpa using congrArg List.length hrule'
  have hresults : report.results = [r, { r' with violations? := some [], omitted := 1 }] := by
    have hselected : a.selectedTests { o with maxViolations := 1 } = [m, m'] := htests
    rw [eq_ofOutcomes_of_analyze hreport, hselected, List.map_cons, List.map_singleton, hr, hr']
    simp [Report.ofOutcomes, Report.results, resultsOf, limitViolations, capViolations,
      TestResult.cap, hone, hone']
  have hmem : r ∈ report.results := by
    rw [hresults]
    exact List.mem_cons_self
  obtain ⟨v, hv⟩ := List.length_eq_one_iff.1 hone
  have hname : v.rule = "no_asserts" := by simpa [hv, Rule.name] using hrule
  have hseverity : v.severity = s.severityOf v.rule := by
    obtain ⟨checks, hchecks⟩ := Settings.exists_checks_of_enabled
      (show s.ruleEnabled Rule.noAsserts.name = true from henabled)
    obtain rfl := Settings.options_eq_ok ho
    exact (Settings.allows_of_mem_violations hchecks rfl rfl hreport hmem
      (by rw [hv]; exact List.mem_cons_self)).severity_eq
  refine ⟨s, o, a, report, hs, ho, ha, hreport, ⟨r, hmem, v, hv, hname, ?_⟩, ?_, htext,
    hvalid _ _ hschema htext⟩
  · rw [hseverity, hname, hinfo]
  · exact ⟨_, by rw [hresults]; exact List.mem_cons_of_mem _ List.mem_cons_self, rfl, rfl⟩

end SmellCheck
