import SmellCheck.Analysis.Run
import SmellCheck.Proofs.Flow.Control
import Mathlib.Data.List.FinRange
/-!
# What a report is made of

Every test that is selected gives a result or an error, and the report
lists the results and the errors in the order of the tests. A cap on the
number of violations cuts the lists of the results short and leaves out
no result. So a report accounts for the tests one by one
(`exists_accounts`): each of them stands in one of the two lists, once.

A violation of a result is a finding of one of the rules that were
applied, in a test case that was made from the test
(`exists_finding_of_mem_violations`).
-/

namespace SmellCheck

namespace Rule

theorem ofName?_name (rule : Rule) : ofName? rule.name = some rule := by
  cases rule <;> decide

theorem name_injective : Function.Injective name := by
  intro rule rule' h
  have hsome : some rule = some rule' := by rw [← ofName?_name rule, h, ofName?_name]
  exact Option.some.inj hsome

end Rule

variable {a : Assembly} {o : Options} {m : Method} {report : Report}

/-! ## One test -/

/-- What is found about a test. -/
theorem Assembly.analyzeTest_eq_ok {r : TestResult} : a.analyzeTest o m = .ok r ↔
    ∃ tc findings, TestCase.ofMethod a o.registry m = .ok tc ∧
      tc.findings o.effectiveChecks = .ok findings ∧
      { target := a.target m
        paths := tc.paths.length
        assertions := tc.assertionSites.length
        violations? := some <| findings.map (tc.violation o.severity)
        omitted := 0 } = r := by
  simp only [analyzeTest, mapError_eq_ok, examine, bind_eq_ok]
  constructor
  · rintro ⟨tc, htc, findings, hfindings, hr⟩
    exact ⟨tc, findings, htc, hfindings, Except.ok.inj hr⟩
  · rintro ⟨tc, findings, htc, hfindings, rfl⟩
    exact ⟨tc, htc, findings, hfindings, rfl⟩

theorem Assembly.target_of_analyzeTest_eq_ok {r : TestResult} (h : a.analyzeTest o m = .ok r) :
    r.target = a.target m := by
  obtain ⟨tc, findings, -, -, rfl⟩ := analyzeTest_eq_ok.1 h
  rfl

theorem Assembly.target_of_analyzeTest_eq_error {e : AnalysisError}
    (h : a.analyzeTest o m = .error e) : e.target = a.target m := by
  rw [analyzeTest] at h
  cases hresult : a.examine o m with
  | ok r =>
    rw [hresult] at h
    cases h
  | error fault =>
    rw [hresult] at h
    cases h
    rfl

/-- The result for a test in which control goes as a table says. -/
theorem Assembly.exists_result_of_follows {table : List (List Nat)} (adjacency : Adjacency Nat)
    (hexplore : explore (fun p => (.ok (table.getD p []) : Except FlowError (List Nat)))
      table.length [0] [] = .complete adjacency)
    (hfollows : ControlFlow.follows m table = true) {rules : List Rule}
    (h : ((TestCase.mk a o.registry ⟨m, 0, adjacency⟩).findings o.effectiveChecks).toOption.map
      (·.map (·.smell.rule)) = some rules) :
    ∃ r, a.analyzeTest o m = .ok r ∧ r.violations.map (·.rule) = rules.map (·.name) := by
  obtain ⟨findings, hfindings, rfl⟩ := Option.map_eq_some_iff.1 h
  have hflow := ControlFlow.ofMethod_of_follows adjacency hfollows hexplore
  refine ⟨_, analyzeTest_eq_ok.2 ⟨_, findings, map_eq_ok.2 ⟨_, hflow, rfl⟩,
    toOption_eq_some.1 hfindings, rfl⟩, ?_⟩
  simp only [TestResult.violations, Option.getD_some, List.map_map]
  rfl

namespace TestCase

variable {tc : TestCase} {findings : List Finding} {f : Finding}

/-- What is reported for paths was reported before, or names the call that
computed the expected value on one of them. -/
theorem exists_callee_of_mem_foldl {body : Body} {sites : List Nat} {graphs : List ValueGraph}
    {found : List Finding}
    (hf : f ∈ graphs.foldl (fun found vg => found ++ computedOn body sites found vg) found) :
    f ∈ found ∨ f.position ∈ sites ∧ ∃ vg ∈ graphs, ∃ callee,
      computedExpectation? body vg f.position = some callee ∧
        f.smell = .computedBy callee.fullName := by
  induction graphs generalizing found with
  | nil => exact Or.inl hf
  | cons vg graphs ih =>
    rcases ih hf with hf | ⟨hsite, vg', hvg', hcallee⟩
    · rcases List.mem_append.1 hf with hf | hf
      · exact Or.inl hf
      · obtain ⟨site, hsite, hfinding⟩ := List.mem_filterMap.1 hf
        obtain ⟨callee, hcallee, rfl⟩ := Option.map_eq_some_iff.1 hfinding
        exact Or.inr ⟨(List.mem_filter.1 hsite).1, vg, List.mem_cons_self, callee, hcallee, rfl⟩
    · exact Or.inr ⟨hsite, vg', List.mem_cons_of_mem vg hvg', hcallee⟩

/-- **Where a finding of the rule on expected values comes from.** -/
theorem exists_callee_of_computedExpected (h : tc.computedExpected = .ok findings)
    (hf : f ∈ findings) : f.position ∈ tc.expectationSites ∧ ∃ t, tc.tracker = .ok t ∧
      ∃ vg ∈ t.graphs, ∃ callee, computedExpectation? tc.body vg f.position = some callee ∧
        f.smell = .computedBy callee.fullName := by
  rw [computedExpected] at h
  split at h
  · cases h
    exact absurd hf List.not_mem_nil
  · obtain ⟨t, ht, rfl⟩ := map_eq_ok.1 h
    obtain ⟨hsite, hcallee⟩ :=
      (exists_callee_of_mem_foldl hf).resolve_left List.not_mem_nil
    exact ⟨hsite, t, ht, hcallee⟩

/-- A rule finds smells of its own. -/
theorem rule_of_mem_check {limit : Nat} {rule : Rule} (h : tc.check limit rule = .ok findings)
    (hf : f ∈ findings) : f.smell.rule = rule := by
  cases rule with
  | noAsserts =>
    cases h
    rw [noAsserts] at hf
    split at hf
    · rw [List.mem_singleton.1 hf]
      rfl
    · exact absurd hf List.not_mem_nil
  | multipleAsserts =>
    cases h
    unfold multipleAsserts at hf
    cases hposition : (longest (tc.paths.map tc.sitesOn))[limit]? with
    | none => simp [hposition] at hf
    | some position =>
      simp only [hposition, List.mem_singleton] at hf
      rw [hf]
      rfl
  | conditionalLogic =>
    cases h
    simp only [conditionalLogic] at hf
    split at hf
    · exact absurd hf List.not_mem_nil
    · rw [List.mem_singleton.1 hf]
      rfl
  | computedExpected =>
    obtain ⟨-, t, -, vg, -, callee, -, hsmell⟩ := exists_callee_of_computedExpected h hf
    rw [hsmell]
    rfl

end TestCase

/-! ## Results and errors -/

/-- The result lists a beginning of the violations, and is else as it was
found. -/
def TestResult.IsCut (full r : TestResult) : Prop :=
  r.violations <+: full.violations ∧
    { full with violations? := r.violations?, omitted := r.omitted } = r

theorem TestResult.IsCut.target_eq {full r : TestResult} (h : full.IsCut r) :
    r.target = full.target := by
  rw [← h.2]

theorem TestResult.IsCut.refl (r : TestResult) : r.IsCut r :=
  ⟨List.prefix_rfl, rfl⟩

theorem TestResult.isCut_cap (room : Nat) (r : TestResult) : r.IsCut (r.cap room).1 := by
  rw [cap]
  split
  · exact ⟨List.take_prefix room r.violations, rfl⟩
  · exact .refl r

/-- A cap leaves out no result. -/
theorem forall₂_capViolations (room : Nat) (results : List TestResult) :
    List.Forall₂ TestResult.IsCut results (capViolations room results).1 := by
  induction results generalizing room with
  | nil => exact .nil
  | cons r results ih => exact .cons (r.isCut_cap room) (ih _)

theorem forall₂_results_ofOutcomes (assembly : String) (o : Options)
    (outcomes : List (Except AnalysisError TestResult)) :
    List.Forall₂ TestResult.IsCut (resultsOf outcomes)
      (Report.ofOutcomes assembly o outcomes).results := by
  change List.Forall₂ _ _ (limitViolations o.maxViolations (resultsOf outcomes)).1
  rw [limitViolations]
  split
  · exact List.forall₂_same.2 fun r _ => .refl r
  · exact forall₂_capViolations _ _

section Outcomes

variable {ι : Type} (outcome : ι → Except AnalysisError TestResult) (tests : List ι)

/-- The results are those of the tests that have one, in order. -/
theorem forall₂_resultsOf : List.Forall₂ (fun i r => outcome i = .ok r)
    (tests.filter fun i => (outcome i).isOk) (resultsOf (tests.map outcome)) := by
  induction tests with
  | nil => exact .nil
  | cons i tests ih =>
    cases houtcome : outcome i with
    | ok r => simpa [resultsOf, houtcome, Except.isOk, Except.toBool] using ih
    | error e => simpa [resultsOf, houtcome, Except.isOk, Except.toBool] using ih

/-- The errors are those of the other tests, in order. -/
theorem forall₂_errorsOf : List.Forall₂ (fun i e => outcome i = .error e)
    (tests.filter fun i => !(outcome i).isOk) (errorsOf (tests.map outcome)) := by
  induction tests with
  | nil => exact .nil
  | cons i tests ih =>
    cases houtcome : outcome i with
    | ok r => simpa [errorsOf, houtcome, Except.isOk, Except.toBool] using ih
    | error e => simpa [errorsOf, houtcome, Except.isOk, Except.toBool] using ih

end Outcomes

/-! ## All tests -/

/-- The tests of an assembly are selected in its order. -/
theorem Assembly.selectedTests_sublist (a : Assembly) (o : Options) :
    (a.selectedTests o).Sublist a.methods := by
  unfold selectedTests
  split
  · exact List.filter_sublist
  · exact List.filter_sublist.trans List.filter_sublist

theorem Assembly.eq_ofOutcomes_of_analyze (h : a.analyze o = .ok report) :
    report = .ofOutcomes a.name o ((a.selectedTests o).map (a.analyzeTest o)) := by
  simp only [analyze] at h
  split at h
  · cases h
  · split at h
    · cases h
    · exact (Except.ok.inj h).symm

/-- Only the checks that are applied count. -/
theorem Assembly.analyze_of_effectiveChecks {checks : Option Checks}
    (h : o.effectiveChecks = ({ o with checks } : Options).effectiveChecks) :
    a.analyze o = a.analyze { o with checks } := by
  have htest : a.analyzeTest o = a.analyzeTest { o with checks } := by
    funext m
    simp only [analyzeTest, examine, h]
  rw [analyze, htest]
  rfl

/-- There is a report, unless the analysis is called off or its only test
is not there. -/
theorem Assembly.exists_report (hcancelled : o.cancelled = false)
    (hfound : o.test ≠ "" → a.selectedTests o ≠ []) : ∃ report, a.analyze o = .ok report := by
  have hnone : ¬ (o.test ≠ "" ∧ (a.selectedTests o).isEmpty = true) := by
    rintro ⟨htest, hempty⟩
    exact hfound htest (List.isEmpty_iff.1 hempty)
  rw [analyze, if_neg hnone, if_neg (by simp [hcancelled])]
  exact ⟨_, rfl⟩

/-- **A report accounts for the tests**, told by their places among those
that are selected: it has a result for some of them and an error for the
others, each once and in order. -/
structure Report.Accounts (a : Assembly) (o : Options) (report : Report)
    (analyzed failed : List (Fin (a.selectedTests o).length)) : Prop where
  /-- Every test is listed once. -/
  perm : (analyzed ++ failed).Perm (List.finRange _)
  analyzed_sorted : analyzed.Pairwise (· < ·)
  failed_sorted : failed.Pairwise (· < ·)
  /-- The results are those of the tests that could be analyzed. -/
  results : List.Forall₂ (fun i r => r.target = a.target ((a.selectedTests o).get i) ∧
    ∃ full, a.analyzeTest o ((a.selectedTests o).get i) = .ok full ∧ full.IsCut r)
    analyzed report.results
  /-- The errors are those of the tests that could not. -/
  errors : List.Forall₂ (fun i e => e.target = a.target ((a.selectedTests o).get i) ∧
    a.analyzeTest o ((a.selectedTests o).get i) = .error e) failed report.errors

/-- **Every report accounts for its tests.** -/
theorem Report.exists_accounts (h : a.analyze o = .ok report) :
    ∃ analyzed failed, Accounts a o report analyzed failed := by
  obtain rfl := Assembly.eq_ofOutcomes_of_analyze h
  let tests := a.selectedTests o
  let outcome : Fin tests.length → Except AnalysisError TestResult :=
    fun i => a.analyzeTest o (tests.get i)
  have houtcomes : (List.finRange tests.length).map outcome = tests.map (a.analyzeTest o) := by
    conv_rhs => rw [← List.map_get_finRange tests, List.map_map]
    rfl
  have hsorted := List.pairwise_lt_finRange tests.length
  refine ⟨(List.finRange tests.length).filter fun i => (outcome i).isOk,
    (List.finRange tests.length).filter fun i => !(outcome i).isOk,
    List.filter_append_perm _ _, hsorted.filter _, hsorted.filter _, ?_, ?_⟩
  · have hfull := forall₂_resultsOf outcome (List.finRange tests.length)
    rw [houtcomes] at hfull
    refine (forall₂_comp hfull (forall₂_results_ofOutcomes a.name o _)).imp ?_
    rintro i r ⟨full, houtcome, hcut⟩
    exact ⟨hcut.target_eq.trans (Assembly.target_of_analyzeTest_eq_ok houtcome), full, houtcome,
      hcut⟩
  · have herrors := forall₂_errorsOf outcome (List.finRange tests.length)
    rw [houtcomes] at herrors
    exact herrors.imp fun i e he => ⟨Assembly.target_of_analyzeTest_eq_error he, he⟩

/-- **A violation is a finding of a rule that was applied**, in the test
that the result is about. -/
theorem Report.exists_finding_of_mem_violations (h : a.analyze o = .ok report) {r : TestResult}
    (hr : r ∈ report.results) {v : Violation} (hv : v ∈ r.violations) :
    ∃ m ∈ a.selectedTests o, r.target = a.target m ∧
      ∃ tc rule findings f, TestCase.ofMethod a o.registry m = .ok tc ∧
        rule ∈ o.effectiveChecks.rules ∧
        tc.check o.effectiveChecks.limit rule = .ok findings ∧ f ∈ findings ∧
        v = tc.violation o.severity f := by
  obtain ⟨analyzed, failed, haccounts⟩ := exists_accounts h
  obtain ⟨i, -, htarget, full, hfull, hcut⟩ := exists_mem_of_forall₂ haccounts.results hr
  obtain ⟨tc, all, htc, hall, rfl⟩ := Assembly.analyzeTest_eq_ok.1 hfull
  obtain ⟨f, hf, rfl⟩ := List.mem_map.1 (hcut.1.subset hv)
  obtain ⟨rule, hrule, findings, hcheck, hf⟩ := exists_mem_of_flatMapM hall hf
  exact ⟨_, List.get_mem _ i, htarget, tc, rule, findings, f, htc, hrule, mapError_eq_ok.1 hcheck,
    hf, rfl⟩

/-- The findings in a test are listed, unless there is a cap. -/
theorem Report.exists_result_of_findings (h : a.analyze o = .ok report)
    (hm : m ∈ a.selectedTests o) {tc : TestCase} (htc : TestCase.ofMethod a o.registry m = .ok tc)
    {findings : List Finding} (hfindings : tc.findings o.effectiveChecks = .ok findings)
    (hcap : o.maxViolations ≤ 0) :
    ∃ r ∈ report.results, r.violations = findings.map (tc.violation o.severity) := by
  obtain rfl := Assembly.eq_ofOutcomes_of_analyze h
  obtain ⟨r, htest, hviolations⟩ : ∃ r, a.analyzeTest o m = .ok r ∧
      r.violations = findings.map (tc.violation o.severity) :=
    ⟨_, Assembly.analyzeTest_eq_ok.2 ⟨tc, findings, htc, hfindings, rfl⟩, rfl⟩
  refine ⟨r, ?_, hviolations⟩
  change r ∈ (limitViolations o.maxViolations _).1
  rw [limitViolations, if_pos hcap]
  simp only [resultsOf, List.mem_filterMap, List.mem_map]
  exact ⟨_, ⟨m, hm, htest⟩, rfl⟩

/-- A test that cannot be analyzed has an error. -/
theorem Report.mem_errors_of_analyzeTest (h : a.analyze o = .ok report)
    (hm : m ∈ a.selectedTests o) {e : AnalysisError} (he : a.analyzeTest o m = .error e) :
    e ∈ report.errors := by
  obtain rfl := Assembly.eq_ofOutcomes_of_analyze h
  change e ∈ errorsOf _
  simp only [errorsOf, List.mem_filterMap, List.mem_map]
  exact ⟨_, ⟨m, hm, he⟩, rfl⟩

end SmellCheck
