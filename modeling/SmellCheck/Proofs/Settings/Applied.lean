import SmellCheck.Proofs.Analysis.Results
import SmellCheck.Proofs.Smell.Limit
import SmellCheck.Settings.Basic
/-!
# Reports under settings

A violation follows the settings if it is of a rule that they enable, has
the severity that they give to the rule and, where it is about many
assertions, stands for a path with more of them than they allow.

The settings are handed to the analysis as the list of the enabled rules.
As long as there is one, exactly these rules are applied, with the limit
and the severities of the settings. Settings that enable no rule, however,
hand on no choice at all, so that the analysis applies all of them
(`Settings.checks_of_disabled`).

A severity is handed on as the text that stands in the settings. Settings
without problems give one of the three severities to every rule
(`Settings.exists_severityOf_eq`), and only such settings are accepted from
a file (`Settings.problems_of_load`).
-/

namespace SmellCheck

namespace Rule

theorem mem_all (rule : Rule) : rule ∈ all := by
  cases rule <;> decide

end Rule

theorem Severity.name_of_ofName? {text : String} {severity : Severity}
    (h : ofName? text = some severity) : severity.name = text := by
  simpa using List.find?_some h

namespace Settings

variable {s : Settings} {o : Options} {a : Assembly} {report : Report}

/-! ## From settings to checks -/

theorem options_eq_ok (h : s.options = .ok o) :
    { registry := (Registry.builtin.select s.frameworks).withAssertionTypes s.assertionTypes
      checks := s.checks
      severity := fun rule => s.severityOf rule.name
      accepted := s.methods.accepts } = o := by
  rw [options] at h
  split at h
  · exact Except.ok.inj h
  · cases h

/-- Under the options of settings every assembly has a report. -/
theorem exists_report (ho : s.options = .ok o) (a : Assembly) :
    ∃ report, a.analyze o = .ok report := by
  obtain rfl := options_eq_ok ho
  exact Assembly.exists_report rfl fun hne => absurd rfl hne

section Checks

variable {checks : Checks}

theorem checks_eq_some (h : s.checks = some checks) :
    checks = ⟨Rule.all.filter fun rule => s.ruleEnabled rule.name, (max s.maxAsserts 1).toNat⟩ := by
  rw [Settings.checks, Checks.enabled] at h
  split at h
  · cases h
  · exact (Option.some.inj h).symm

/-- The rules that are applied are those that are enabled. -/
theorem mem_rules_checks (h : s.checks = some checks) {rule : Rule} :
    rule ∈ checks.rules ↔ s.ruleEnabled rule.name = true := by
  rw [checks_eq_some h, List.mem_filter]
  exact and_iff_right rule.mem_all

/-- A path may always make one assertion. -/
theorem limit_checks (h : s.checks = some checks) : checks.limit = s.maxAsserts.toNat := by
  have hpos : 1 ≤ s.maxAsserts := by
    rw [maxAsserts]
    split
    · split <;> omega
    · omega
  rw [checks_eq_some h, Int.max_eq_left hpos]

/-- **The enabled rules are applied**, if there is one. -/
theorem exists_checks_of_enabled {rule : Rule} (h : s.ruleEnabled rule.name = true) :
    ∃ checks, s.checks = some checks := by
  have hrule : rule ∈ Rule.all.filter fun rule => s.ruleEnabled rule.name :=
    List.mem_filter.2 ⟨rule.mem_all, h⟩
  rw [Settings.checks, Checks.enabled]
  split
  · rename_i hnil
    rw [hnil] at hrule
    exact absurd hrule List.not_mem_nil
  · exact ⟨_, rfl⟩

/-- **No choice is made if no rule is enabled.** -/
theorem checks_of_disabled (h : ∀ rule : Rule, s.ruleEnabled rule.name = false) :
    s.checks = none := by
  have hnil : (Rule.all.filter fun rule => s.ruleEnabled rule.name) = [] :=
    List.filter_eq_nil_iff.2 fun rule _ => by rw [h rule]; exact Bool.false_ne_true
  rw [Settings.checks, Checks.enabled, hnil]

end Checks

/-! ## Severities -/

/-- What the settings of a rule say about its severity is nothing or one
of the three. -/
theorem severity_of_ruleProblems {name : String} {r : RuleSettings}
    (h : ruleProblems name r = []) :
    r.severity = "" ∨ ∃ severity : Severity, r.severity = severity.name := by
  rw [ruleProblems] at h
  split at h
  · cases h
  · obtain ⟨hseverity, -⟩ := List.append_eq_nil_iff.1 h
    split at hseverity
    · rename_i hknown
      refine hknown.imp_right fun hsome => ?_
      obtain ⟨severity, hseverity⟩ := Option.isSome_iff_exists.1 hsome
      exact ⟨severity, (Severity.name_of_ofName? hseverity).symm⟩
    · cases hseverity

/-- **Settings without problems give one of the three severities to every
rule.** -/
theorem exists_severityOf_eq (h : s.problems = []) (rule : Rule) :
    ∃ severity : Severity, s.severityOf rule.name = severity.name := by
  rw [severityOf]
  split
  · rename_i r hr
    have hmem : (rule.name, r) ∈ s.rules := by
      obtain ⟨l₁, l₂, hrules, -⟩ := List.lookup_eq_some_iff.1 hr
      rw [hrules]
      simp
    split
    · exact ⟨_, rfl⟩
    · rename_i hne
      exact (severity_of_ruleProblems (List.flatMap_eq_nil_iff.1 h _ hmem)).resolve_left hne
  · exact ⟨_, rfl⟩

/-- **Only settings without problems are accepted.** -/
theorem problems_of_load {source : String} (h : load source = .ok s) : s.problems = [] := by
  obtain ⟨d, -, h⟩ := bind_eq_ok.1 h
  obtain ⟨s', -, h⟩ := bind_eq_ok.1 h
  split at h
  · rename_i hempty
    cases h
    exact List.isEmpty_iff.1 hempty
  · cases h

/-! ## Violations -/

/-- **The violation of a result follows the settings.** -/
structure Allows (s : Settings) (a : Assembly) (o : Options) (r : TestResult) (v : Violation) :
    Prop where
  enabled : s.ruleEnabled v.rule = true
  severity_eq : v.severity = s.severityOf v.rule
  /-- The test of the result has a path with more assertion calls than the
  settings allow. -/
  exceeds : v.rule = Rule.multipleAsserts.name →
    ∃ m ∈ a.selectedTests o, r.target = a.target m ∧
      ∃ tc, TestCase.ofMethod a o.registry m = .ok tc ∧
        ∃ w ∈ tc.paths, tc.Exceeds s.maxAsserts.toNat w

/-- A finding of an enabled rule becomes a violation that follows the
settings. -/
theorem allows_of_mem_violations {checks : Checks} (hchecks : s.checks = some checks)
    (ho : o.checks = s.checks) (hseverity : o.severity = fun rule => s.severityOf rule.name)
    (h : a.analyze o = .ok report) {r : TestResult} (hr : r ∈ report.results) {v : Violation}
    (hv : v ∈ r.violations) : s.Allows a o r v := by
  obtain ⟨m, hm, htarget, tc, rule, findings, f, htc, hrule, hcheck, hf, rfl⟩ :=
    Report.exists_finding_of_mem_violations h hr hv
  rw [Options.effectiveChecks, ho, hchecks, Option.getD_some] at hrule hcheck
  have hsmell : f.smell.rule = rule := TestCase.rule_of_mem_check hcheck hf
  have hname : (tc.violation o.severity f).rule = rule.name := congrArg Rule.name hsmell
  refine ⟨?_, ?_, fun hmultiple => ⟨m, hm, htarget, tc, htc, ?_⟩⟩
  · rw [hname]
    exact (mem_rules_checks hchecks).1 hrule
  · rw [hname, ← hsmell]
    exact congrArg (fun severity => severity f.smell.rule) hseverity
  · rw [hname] at hmultiple
    obtain rfl := Rule.name_injective hmultiple
    rw [limit_checks hchecks] at hcheck
    cases hcheck
    exact TestCase.multipleAsserts_ne_nil.1 (List.ne_nil_of_mem hf)

/-- **Reports follow the settings as soon as one rule is enabled.** Under
the options of settings there is a report for every assembly. In each
report, whichever tests are selected and however many violations are
listed, all violations follow the settings if and only if the settings
enable some rule or there is no violation. Settings that enable none are
treated as if they enabled all. -/
theorem allows_iff_exists_enabled (ho : s.options = .ok o) (a : Assembly) :
    (∃ report, a.analyze o = .ok report) ∧
    (∀ (test version : String) (maxViolations workers : Int) (cancelled : Bool) (report : Report),
      a.analyze { o with test, version, maxViolations, workers, cancelled } = .ok report →
      ((∀ r ∈ report.results, ∀ v ∈ r.violations,
          s.Allows a { o with test, version, maxViolations, workers, cancelled } r v) ↔
        (∃ rule : Rule, s.ruleEnabled rule.name = true) ∨
          ∀ r ∈ report.results, r.violations = [])) ∧
    ((∀ rule : Rule, s.ruleEnabled rule.name = false) →
      a.analyze o = a.analyze { o with checks := some .standard }) := by
  refine ⟨exists_report ho a, ?_⟩
  obtain rfl := options_eq_ok ho
  refine ⟨?_, fun hdisabled => Assembly.analyze_of_effectiveChecks (by
    rw [Options.effectiveChecks, checks_of_disabled hdisabled]
    rfl)⟩
  intro test version maxViolations workers cancelled report h
  constructor
  · intro hall
    by_cases henabled : ∃ rule : Rule, s.ruleEnabled rule.name = true
    · exact Or.inl henabled
    · -- whatever was applied, a violation would name a rule that is enabled
      refine Or.inr fun r hr => List.eq_nil_iff_forall_not_mem.2 fun v hv => henabled ?_
      obtain ⟨m, -, -, tc, rule, findings, f, -, -, -, -, rfl⟩ :=
        Report.exists_finding_of_mem_violations h hr hv
      exact ⟨f.smell.rule, (hall r hr _ hv).enabled⟩
  · rintro (⟨rule, hrule⟩ | hnone) r hr v hv
    · obtain ⟨checks, hchecks⟩ := exists_checks_of_enabled hrule
      exact allows_of_mem_violations hchecks rfl rfl h hr hv
    · rw [hnone r hr] at hv
      exact absurd hv List.not_mem_nil

end Settings

/-! ## Reading by characters

A text is an array of bytes, and to take the characters of a literal from
it costs the kernel more than the rest of reading it. A text whose
characters are known is therefore run from them. -/

/-- The characters of a text that ends in a literal. -/
theorem Text.toList_append_ofList (s : String) (cs : List Char) :
    (s ++ String.ofList cs).toList = s.toList ++ cs := by
  rw [String.toList_append, String.toList_ofList]

namespace Yaml

/-- The scan at the start of the given characters. -/
def Scan.ofChars (cs : List Char) : Scan :=
  let (room, cs) :=
    if cs.head?.any isByteOrderMark then (portion - 3, cs.tail) else (portion, cs)
  let markedTo :=
    if cs.head?.any isByteOrderMark then max 1 ((splitBytes room cs).1.length - 2) else 0
  let (rest, cut) := readable (cs.length + 1) room cs
  { cursor := .start rest, cut, markedTo }

theorem Scan.start_eq_ofChars (source : String) : Scan.start source = .ofChars source.toList :=
  rfl

/-- The first document of the given characters. -/
def Document.ofChars (cs : List Char) : Except Fault (Option Document) := do
  let (root, r) ← (takeDocument (16 * cs.length + 16)).run { scan := .ofChars cs }
  return root.map fun root => { root, anchored := r.anchored }

theorem Document.read_eq_ofChars (source : String) :
    Document.read source = Document.ofChars source.toList := by
  simp only [Document.read, Document.ofChars, Scan.start_eq_ofChars, String.length_toList]

/-- What is read from the given characters. -/
def readChars (cs : List Char) : Except ReadError Document :=
  ((Document.ofChars cs).map (·.getD { root := .empty })).mapError .fault

theorem readDocument_eq_readChars (source : String) :
    readDocument source = readChars source.toList := by
  delta readDocument readChars
  rw [← Document.read_eq_ofChars]
  generalize Document.read source = d
  cases d <;> rfl

end Yaml

namespace Settings

variable {s : Settings} {o : Options} {a : Assembly} {report : Report}

/-- The settings of the given characters. -/
def ofChars (cs : List Char) : Except LoadError Settings := do
  let d ← (Yaml.readChars cs).mapError .unreadable
  ofYaml d

theorem load_eq_ofChars (source : String) : load source = ofChars source.toList := by
  delta load ofChars
  rw [Yaml.readDocument_eq_readChars]

/-! ## Two files -/

/-- A report that is made by running a settings file on a document with
one test, in which control goes as a table says. -/
theorem exists_report_of_any (file : String) (d : ListingDocument) (table : List (List Nat))
    (adjacency : Adjacency Nat) (findings : List Finding) (test : Settings → Bool)
    (hexplore : explore (fun p => (.ok (table.getD p []) : Except FlowError (List Nat)))
      table.length [0] [] = .complete adjacency)
    (h : ((ofChars file.toList).toOption.any fun s => test s && s.options.toOption.any fun o =>
      (Assembly.ofDocument d).toOption.any fun a => (a.selectedTests o).any fun m =>
        ControlFlow.follows m table &&
          ((TestCase.mk a o.registry ⟨m, 0, adjacency⟩).findings
            o.effectiveChecks).toOption == some findings) = true) :
    ∃ s o a report r tc, load file = .ok s ∧ test s = true ∧ s.options = .ok o ∧
      Assembly.ofDocument d = .ok a ∧ a.analyze o = .ok report ∧ r ∈ report.results ∧
      r.violations = findings.map (TestCase.violation tc o.severity) := by
  rw [← load_eq_ofChars] at h
  simp only [Option.any_eq_true, List.any_eq_true, Bool.and_eq_true, beq_iff_eq,
    toOption_eq_some] at h
  obtain ⟨s, hs, htest, o, ho, a, ha, m, hm, hfollows, hfindings⟩ := h
  have hc := ControlFlow.ofMethod_of_follows adjacency hfollows hexplore
  have htc : TestCase.ofMethod a o.registry m = .ok _ := map_eq_ok.2 ⟨_, hc, rfl⟩
  have hcap : o.maxViolations ≤ 0 := by rw [← options_eq_ok ho]
  obtain ⟨report, hreport⟩ := exists_report ho a
  obtain ⟨r, hr, hviolations⟩ :=
    Report.exists_result_of_findings hreport hm htc hfindings hcap
  exact ⟨s, o, a, report, r, _, hs, htest, ho, ha, hreport, hr, hviolations⟩

/-- A higher limit and severity for many assertions, and no rule on tests
without one. -/
def limitFile : String :=
  "rules:\n  multiple_asserts:\n    max: 2\n    severity: error\n" ++
    "  no_asserts:\n    enabled: false\n"

/-- No rule is enabled. -/
def silentFile : String :=
  "rules:\n  no_asserts: &off\n    enabled: false\n  multiple_asserts: *off\n" ++
    "  conditional_logic: *off\n  computed_expected: *off\n"

/-- A test that makes three assertions. -/
def threeListing : ListingDocument :=
  Assembly.testDocument 0 [("void T::M()",
    "call void Xunit.Assert::Fail()\ncall void Xunit.Assert::Fail()\n" ++
      "call void Xunit.Assert::Fail()\nret")]

/-- A test that does nothing. -/
def idleListing : ListingDocument :=
  Assembly.testDocument 0 [("void T::M()", "ret")]

/-- Three assertions violate a limit of two. -/
theorem allows_iff_exists_enabled_limitFile :
    ∃ s o a report r v, load limitFile = .ok s ∧ s.options = .ok o ∧
      Assembly.ofDocument threeListing = .ok a ∧ a.analyze o = .ok report ∧ r ∈ report.results ∧
      v ∈ r.violations ∧ v.rule = "multiple_asserts" ∧ v.severity = "error" ∧
      s.ruleEnabled Rule.noAsserts.name = false ∧ s.Allows a o r v := by
  obtain ⟨s, o, a, report, r, tc, hs, htest, ho, ha, hreport, hr, hviolations⟩ :=
    exists_report_of_any limitFile threeListing [[1], [2], [3], []]
      [(0, [1]), (1, [2]), (2, [3]), (3, [])] [⟨.manyAssertions 3 2, 2⟩]
      (fun s => s.ruleEnabled "multiple_asserts" &&
        s.severityOf "multiple_asserts" == "error" && !s.ruleEnabled "no_asserts")
      (by simp [explore, Adjacency.has, Adjacency.fresh]) (by
        delta limitFile
        repeat rw [Text.toList_append_ofList]
        repeat rw [String.toList_ofList]
        decide +kernel)
  simp only [Bool.and_eq_true, beq_iff_eq, Bool.not_eq_true'] at htest
  obtain ⟨⟨henabled, hseverity⟩, hdisabled⟩ := htest
  have hv : tc.violation o.severity ⟨.manyAssertions 3 2, 2⟩ ∈ r.violations := by
    rw [hviolations]
    exact List.mem_singleton.2 rfl
  obtain rfl := options_eq_ok ho
  have hallows := ((allows_iff_exists_enabled ho a).2.1 "" "" 0 0 false report hreport).2
    (Or.inl ⟨.multipleAsserts, henabled⟩) r hr _ hv
  exact ⟨s, _, a, report, r, _, hs, ho, ha, hreport, hr, hv, rfl,
    hallows.severity_eq.trans hseverity, hdisabled, hallows⟩

/-- **Settings that disable every rule silence none**: a test that makes
no assertion is reported. -/
theorem exists_violation_of_silentFile :
    ∃ s o a report r v, load silentFile = .ok s ∧ s.options = .ok o ∧
      Assembly.ofDocument idleListing = .ok a ∧ a.analyze o = .ok report ∧ r ∈ report.results ∧
      v ∈ r.violations ∧ v.rule = "no_asserts" ∧ s.ruleEnabled v.rule = false := by
  obtain ⟨s, o, a, report, r, tc, hs, hdisabled, ho, ha, hreport, hr, hviolations⟩ :=
    exists_report_of_any silentFile idleListing [[]] [(0, [])] [⟨.noAssertion, 0⟩]
      (fun s => !s.ruleEnabled "no_asserts")
      (by simp [explore, Adjacency.has, Adjacency.fresh]) (by
        delta silentFile
        repeat rw [Text.toList_append_ofList]
        repeat rw [String.toList_ofList]
        decide +kernel)
  rw [Bool.not_eq_true'] at hdisabled
  refine ⟨s, o, a, report, r, tc.violation o.severity ⟨.noAssertion, 0⟩, hs, ho, ha, hreport, hr,
    ?_, rfl, hdisabled⟩
  rw [hviolations]
  exact List.mem_singleton.2 rfl

end Settings

end SmellCheck
