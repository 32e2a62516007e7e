import SmellCheck.Proofs.Analysis.Locality
import SmellCheck.Proofs.Smell.Limit
/-!
# More assertion types

Further assertion types make a registry wider: it recognises more
assertions, and neither more tests nor more assertions that take the
expected value first (`Registry.Widens`). More methods of a call graph are
then asserting, and more instructions of a test are assertion calls.

The rules read these calls in different ways. A test without assertion
calls under the wider registry has none under the other either, and a
path with too many of them has too many under the wider one. Branches do
not depend on them at all, and expected values are looked at only where an
assertion takes one first, which every registry of the two recognises. So
the same tests are selected and fail, and the results are related as
`TestResult.Widens` says.
-/

namespace SmellCheck

/-! ## Registries -/

namespace Registry

/-- **The other registry recognises more assertions**, but the same tests,
and the same assertions that take the expected value first. -/
structure Widens (narrow wide : Registry) : Prop where
  isTest_eq : ∀ m, narrow.isTest m = wide.isTest m
  isAssertion_of : ∀ s, narrow.isAssertion s = true → wide.isAssertion s = true
  expectsFirst_eq : ∀ s, narrow.expectsFirst s = wide.expectsFirst s

variable {r narrow wide : Registry} {types types' : List String}

theorem isTest_withAssertionTypes (m : Method) :
    (r.withAssertionTypes types).isTest m = r.isTest m := by
  rw [withAssertionTypes]
  split
  · rfl
  · simp [isTest, frameworkOf?, add, Framework.marks, Framework.custom]

theorem expectsFirst_withAssertionTypes (s : Signature) :
    (r.withAssertionTypes types).expectsFirst s = r.expectsFirst s := by
  rw [withAssertionTypes]
  split
  · rfl
  · simp [expectsFirst, add, Framework.expectsFirst, Framework.custom]

/-- The methods of the further types are assertions too. -/
theorem isAssertion_withAssertionTypes (s : Signature) :
    (r.withAssertionTypes types).isAssertion s = true ↔
      r.isAssertion s = true ∨ s.owner ∈ types := by
  rw [withAssertionTypes]
  split
  · rename_i hempty
    simp [List.isEmpty_iff.1 hempty]
  · simp [isAssertion, add, Framework.isAssertion, Framework.custom]

/-- **Further assertion types make a registry wider.** -/
theorem widens_withAssertionTypes (r : Registry) (h : types ⊆ types') :
    (r.withAssertionTypes types).Widens (r.withAssertionTypes types') where
  isTest_eq m := by rw [isTest_withAssertionTypes, isTest_withAssertionTypes]
  isAssertion_of s := by
    rw [isAssertion_withAssertionTypes, isAssertion_withAssertionTypes]
    exact Or.imp_right (h ·)
  expectsFirst_eq s := by
    rw [expectsFirst_withAssertionTypes, expectsFirst_withAssertionTypes]

theorem Widens.callsAssertion_of (h : narrow.Widens wide) {m : Method}
    (hm : narrow.callsAssertion m = true) : wide.callsAssertion m = true := by
  simp only [callsAssertion, List.any_eq_true, Option.any_eq_true] at hm ⊢
  obtain ⟨ins, hins, s, hs, hassertion⟩ := hm
  exact ⟨ins, hins, s, hs, h.isAssertion_of s hassertion⟩

/-- What takes the expected value first is an assertion. -/
theorem isAssertion_of_expectsFirst {s : Signature} (h : r.expectsFirst s = true) :
    r.isAssertion s = true := by
  simp only [expectsFirst, Framework.expectsFirst, Bool.and_eq_true, List.any_eq_true] at h
  obtain ⟨-, f, hf, hassertion, -⟩ := h
  exact List.any_eq_true.2 ⟨f, hf, hassertion⟩

end Registry

/-! ## Test cases -/

namespace TestCase

variable {tc : TestCase} {wide : Registry}

/-- The test case under another registry. -/
def withRegistry (tc : TestCase) (r : Registry) : TestCase :=
  { tc with registry := r }

/-- Expected values are looked at where an assertion takes one first,
whatever else is an assertion. -/
theorem expectationSites_eq : tc.expectationSites = tc.positionsOf tc.expectsFirst := by
  rw [expectationSites, assertionSites, positionsOf, positionsOf, List.filter_filter]
  refine List.filter_congr fun position _ => ?_
  cases tc.body[position]? with
  | none => rfl
  | some ins =>
    rw [Option.any_some, Option.any_some, Bool.and_eq_left_iff_imp]
    intro hfirst
    obtain ⟨s, hs, hfirst⟩ := (Option.any_eq_true _ _).1 hfirst
    have hassertion := Registry.isAssertion_of_expectsFirst hfirst
    exact (Option.any_eq_true _ _).2 ⟨s, hs, by rw [hassertion, Bool.true_or]⟩

section

variable (h : tc.registry.Widens wide)

include h

/-- Asserting methods stay asserting. -/
theorem isAsserting_withRegistry {k : Method} (hk : tc.isAsserting k = true) :
    (tc.withRegistry wide).isAsserting k = true := by
  obtain ⟨last, hlast, hcalls⟩ := List.any_eq_true.1 hk
  exact List.any_eq_true.2 ⟨last, hlast, h.callsAssertion_of hcalls⟩

/-- Assertion calls stay assertion calls. -/
theorem isAssertionCall_withRegistry {ins : Instruction} (hins : tc.isAssertionCall ins = true) :
    (tc.withRegistry wide).isAssertionCall ins = true := by
  simp only [isAssertionCall, Option.any_eq_true, Bool.or_eq_true] at hins ⊢
  obtain ⟨s, hs, hassertion | ⟨callee, hresolve, hasserting⟩⟩ := hins
  · exact ⟨s, hs, Or.inl (h.isAssertion_of s hassertion)⟩
  · exact ⟨s, hs, Or.inr ⟨callee, hresolve, isAsserting_withRegistry h hasserting⟩⟩

theorem assertionSites_sublist :
    tc.assertionSites.Sublist (tc.withRegistry wide).assertionSites := by
  refine List.monotone_filter_right _ fun position hposition => ?_
  obtain ⟨ins, hins, hcall⟩ := (Option.any_eq_true _ _).1 hposition
  exact (Option.any_eq_true _ _).2 ⟨ins, hins, isAssertionCall_withRegistry h hcall⟩

/-- A test without assertion calls had none before. -/
theorem noAsserts_subset : (tc.withRegistry wide).noAsserts ⊆ tc.noAsserts := by
  intro f hf
  rw [noAsserts] at hf
  split at hf
  · rename_i hwide
    have hnarrow : tc.assertionSites = [] :=
      List.sublist_nil.1 (List.isEmpty_iff.1 hwide ▸ assertionSites_sublist h)
    rwa [noAsserts, hnarrow]
  · exact absurd hf List.not_mem_nil

/-- A path with too many assertion calls still has too many. -/
theorem multipleAsserts_withRegistry {limit : Nat} (hfound : tc.multipleAsserts limit ≠ []) :
    (tc.withRegistry wide).multipleAsserts limit ≠ [] := by
  obtain ⟨w, hw, calls, hnodup, hlimit, hcalls⟩ := multipleAsserts_ne_nil.1 hfound
  refine multipleAsserts_ne_nil.2 ⟨w, hw, calls, hnodup, hlimit, fun p hp => ?_⟩
  obtain ⟨hpath, ins, hins, hcall⟩ := hcalls p hp
  exact ⟨hpath, ins, hins, isAssertionCall_withRegistry h hcall⟩

theorem expectationSites_withRegistry :
    (tc.withRegistry wide).expectationSites = tc.expectationSites := by
  rw [expectationSites_eq, expectationSites_eq]
  refine positionsOf_congr tc fun ins _ => ?_
  rw [expectsFirst, expectsFirst, funext h.expectsFirst_eq]
  rfl

end

end TestCase

/-! ## Findings and results -/

/-- **What a wider registry changes about findings.** -/
structure FindingsWiden (narrow wide : List Finding) : Prop where
  noAsserts : ∀ f ∈ wide, f.smell.rule = .noAsserts → f ∈ narrow
  multipleAsserts : (∃ f ∈ narrow, f.smell.rule = .multipleAsserts) →
    ∃ f ∈ wide, f.smell.rule = .multipleAsserts
  unchanged : ∀ rule ∈ [Rule.conditionalLogic, .computedExpected],
    narrow.filter (·.smell.rule == rule) = wide.filter (·.smell.rule == rule)

namespace FindingsWiden

theorem refl (findings : List Finding) : FindingsWiden findings findings :=
  ⟨fun _ hf _ => hf, id, fun _ _ => rfl⟩

theorem append {u u' v v' : List Finding} (hu : FindingsWiden u u') (hv : FindingsWiden v v') :
    FindingsWiden (u ++ v) (u' ++ v') where
  noAsserts f hf hrule := by
    rcases List.mem_append.1 hf with hf | hf
    · exact List.mem_append_left v (hu.noAsserts f hf hrule)
    · exact List.mem_append_right u (hv.noAsserts f hf hrule)
  multipleAsserts := by
    rintro ⟨f, hf, hrule⟩
    rcases List.mem_append.1 hf with hf | hf
    · obtain ⟨f', hf', hrule'⟩ := hu.multipleAsserts ⟨f, hf, hrule⟩
      exact ⟨f', List.mem_append_left v' hf', hrule'⟩
    · obtain ⟨f', hf', hrule'⟩ := hv.multipleAsserts ⟨f, hf, hrule⟩
      exact ⟨f', List.mem_append_right u' hf', hrule'⟩
  unchanged rule hrule := by
    rw [List.filter_append, List.filter_append, hu.unchanged rule hrule, hv.unchanged rule hrule]

/-- Findings of one rule, about which only one thing is asked. -/
theorem of_rule {own : Rule} {u u' : List Finding} (hu : ∀ f ∈ u, f.smell.rule = own)
    (hu' : ∀ f ∈ u', f.smell.rule = own) (hnone : own = .noAsserts → u' ⊆ u)
    (hmany : own = .multipleAsserts → u ≠ [] → u' ≠ [])
    (hsame : own = .conditionalLogic ∨ own = .computedExpected → u = u') : FindingsWiden u u' where
  noAsserts f hf hrule := hnone ((hu' f hf).symm.trans hrule) hf
  multipleAsserts := by
    rintro ⟨f, hf, hrule⟩
    have hown : own = .multipleAsserts := (hu f hf).symm.trans hrule
    obtain ⟨f', hf'⟩ := List.exists_mem_of_ne_nil _ (hmany hown (List.ne_nil_of_mem hf))
    exact ⟨f', hf', (hu' f' hf').trans hown⟩
  unchanged rule hrule := by
    have hrule : rule = .conditionalLogic ∨ rule = .computedExpected := by simpa using hrule
    by_cases hown : own = rule
    · rw [hsame (hown ▸ hrule)]
    · have hnil : ∀ findings : List Finding, (∀ f ∈ findings, f.smell.rule = own) →
          findings.filter (·.smell.rule == rule) = [] := by
        intro findings hfindings
        refine List.filter_eq_nil_iff.2 fun f hf hbeq => hown ?_
        exact (hfindings f hf).symm.trans (eq_of_beq hbeq)
      rw [hnil u hu, hnil u' hu']

end FindingsWiden

namespace TestCase

variable {tc : TestCase} {wide : Registry} (h : tc.registry.Widens wide)

include h

/-- **What a wider registry changes about the findings of a rule.** Only
the rule on expected values can fail, and it fails alike. -/
theorem check_widens (limit : Nat) (rule : Rule) : FailAlike FindingsWiden (tc.check limit rule)
    ((tc.withRegistry wide).check limit rule) := by
  have hrule : ∀ (tc : TestCase) (findings : List Finding), tc.check limit rule = .ok findings →
      ∀ f ∈ findings, f.smell.rule = rule := fun tc findings hcheck f => rule_of_mem_check hcheck
  cases rule with
  | noAsserts =>
    exact .ok (.of_rule (hrule _ _ rfl) (hrule _ _ rfl) (fun _ => noAsserts_subset h) (by simp)
      (by simp))
  | multipleAsserts =>
    exact .ok (.of_rule (hrule _ _ rfl) (hrule _ _ rfl) (by simp)
      (fun _ => multipleAsserts_withRegistry h) (by simp))
  | conditionalLogic =>
    exact .ok (.refl tc.conditionalLogic)
  | computedExpected =>
    have hsame : (tc.withRegistry wide).computedExpected = tc.computedExpected :=
      computedExpected_congr rfl (expectationSites_withRegistry h)
    simp only [check, hsame]
    cases tc.computedExpected with
    | error e => exact .error e
    | ok findings => exact .ok (.refl findings)

theorem findings_widen (checks : Checks) :
    FailAlike FindingsWiden (tc.findings checks) ((tc.withRegistry wide).findings checks) :=
  FailAlike.flatMapM (.refl []) (fun _ _ _ _ => .append)
    (fun rule => (check_widens h checks.limit rule).mapError _) checks.rules

end TestCase

/-- **What a wider registry changes about the result of a test**: it may
have lost a violation for making no assertion, and may have gained one
for making too many. -/
structure TestResult.Widens (narrow wide : TestResult) : Prop where
  target_eq : narrow.target = wide.target
  paths_eq : narrow.paths = wide.paths
  assertions_le : narrow.assertions ≤ wide.assertions
  /-- No violation for making no assertion is new. -/
  noAsserts : ∀ v ∈ wide.violations, v.rule = Rule.noAsserts.name → v ∈ narrow.violations
  /-- A test that makes too many assertions still does. -/
  multipleAsserts : (∃ v ∈ narrow.violations, v.rule = Rule.multipleAsserts.name) →
    ∃ v ∈ wide.violations, v.rule = Rule.multipleAsserts.name
  /-- The other violations are the same. -/
  unchanged : ∀ rule ∈ [Rule.conditionalLogic, .computedExpected],
    narrow.violations.filter (·.rule == rule.name) = wide.violations.filter (·.rule == rule.name)

/-- Results whose violations stand for findings. -/
theorem TestResult.widens_of_findings {narrow wide : TestResult} {u u' : List Finding}
    {violation : Finding → Violation} (hname : ∀ f, (violation f).rule = f.smell.rule.name)
    (hnarrow : narrow.violations = u.map violation) (hwide : wide.violations = u'.map violation)
    (hwiden : FindingsWiden u u') (htarget : narrow.target = wide.target)
    (hpaths : narrow.paths = wide.paths) (hassertions : narrow.assertions ≤ wide.assertions) :
    narrow.Widens wide where
  target_eq := htarget
  paths_eq := hpaths
  assertions_le := hassertions
  noAsserts v hv hrule := by
    rw [hwide] at hv
    obtain ⟨f, hf, rfl⟩ := List.mem_map.1 hv
    rw [hname] at hrule
    rw [hnarrow]
    exact List.mem_map_of_mem (hwiden.noAsserts f hf (Rule.name_injective hrule))
  multipleAsserts := by
    rw [hnarrow, hwide]
    rintro ⟨v, hv, hrule⟩
    obtain ⟨f, hf, rfl⟩ := List.mem_map.1 hv
    rw [hname] at hrule
    obtain ⟨f', hf', hrule'⟩ := hwiden.multipleAsserts ⟨f, hf, Rule.name_injective hrule⟩
    exact ⟨violation f', List.mem_map_of_mem hf', by rw [hname, hrule']⟩
  unchanged rule hrule := by
    have hfilter : ∀ findings : List Finding,
        (findings.map violation).filter (·.rule == rule.name) =
          (findings.filter (·.smell.rule == rule)).map violation := by
      intro findings
      rw [List.filter_map]
      refine congrArg (List.map violation) (List.filter_congr fun f _ => ?_)
      rw [Function.comp_apply, hname, Bool.eq_iff_iff, beq_iff_eq, beq_iff_eq,
        Rule.name_injective.eq_iff]
    rw [hnarrow, hwide, hfilter, hfilter, hwiden.unchanged rule hrule]

/-- **What a wider registry changes about a report.** The same tests fail.
Behind the results stands what was found about the other tests, of which
a cap may leave out the end. -/
structure Report.Widens (cap : Int) (narrow wide : Report) : Prop where
  errors_eq : narrow.errors = wide.errors
  found : ∃ found found', List.Forall₂ TestResult.Widens found found' ∧
    List.Forall₂ TestResult.IsCut found narrow.results ∧
    List.Forall₂ TestResult.IsCut found' wide.results
  /-- Without a cap all that was found is listed. -/
  results : cap ≤ 0 → List.Forall₂ TestResult.Widens narrow.results wide.results

namespace Assembly

variable {a : Assembly} {o : Options} {wide : Registry}

/-- **The outcome of a test under a wider registry.** -/
theorem analyzeTest_widens (h : o.registry.Widens wide) (m : Method) :
    FailAlike TestResult.Widens (a.analyzeTest o m)
      (a.analyzeTest { o with registry := wide } m) := by
  refine FailAlike.mapError ?_ _
  rw [examine, examine, TestCase.ofMethod, TestCase.ofMethod]
  cases ControlFlow.ofMethod m with
  | error e => exact .error _
  | ok c =>
    let tc : TestCase := ⟨a, o.registry, c⟩
    have hwidens : tc.registry.Widens wide := h
    have hsites := (TestCase.assertionSites_sublist hwidens).length_le
    refine (TestCase.findings_widen hwidens o.effectiveChecks).bind fun u u' hwiden => .ok ?_
    -- the violation for a finding does not depend on the registry
    exact TestResult.widens_of_findings (fun _ => rfl) rfl rfl hwiden rfl rfl
      (Int.ofNat_le.2 hsites)

/-- The same tests are selected. -/
theorem selectedTests_widens (h : o.registry.Widens wide) :
    a.selectedTests o = a.selectedTests { o with registry := wide } := by
  simp only [selectedTests, tests, funext h.isTest_eq]

end Assembly

/-- The errors are the same and the results are related, if all outcomes
are. -/
theorem forall₂_resultsOf_of_failAlike {R : TestResult → TestResult → Prop}
    {outcomes outcomes' : List (Except AnalysisError TestResult)}
    (h : List.Forall₂ (FailAlike R) outcomes outcomes') :
    errorsOf outcomes = errorsOf outcomes' ∧
      List.Forall₂ R (resultsOf outcomes) (resultsOf outcomes') := by
  induction h with
  | nil => exact ⟨rfl, .nil⟩
  | cons houtcome _ ih =>
    obtain ⟨herrors, hresults⟩ := ih
    cases houtcome with
    | error e => exact ⟨congrArg (e :: ·) herrors, hresults⟩
    | ok hab => exact ⟨herrors, .cons hab hresults⟩

/-- **Related outcomes make related reports.** -/
theorem Report.widens_ofOutcomes (assembly : String) {o o' : Options}
    (hcap : o'.maxViolations = o.maxViolations)
    {outcomes outcomes' : List (Except AnalysisError TestResult)}
    (h : List.Forall₂ (FailAlike TestResult.Widens) outcomes outcomes') :
    Widens o.maxViolations (ofOutcomes assembly o outcomes) (ofOutcomes assembly o' outcomes') := by
  obtain ⟨herrors, hresults⟩ := forall₂_resultsOf_of_failAlike h
  exact
    { errors_eq := herrors
      found := ⟨_, _, hresults, forall₂_results_ofOutcomes assembly o outcomes,
        forall₂_results_ofOutcomes assembly o' outcomes'⟩
      results := fun hnone => by
        simp only [ofOutcomes, hcap, limitViolations, if_pos hnone]
        exact hresults }

namespace Assembly

/-- **The report under a wider registry.** -/
theorem analyze_widens {a : Assembly} {o : Options} {wide : Registry}
    (h : o.registry.Widens wide) : FailAlike (Report.Widens o.maxViolations) (a.analyze o)
      (a.analyze { o with registry := wide }) := by
  have houtcomes : List.Forall₂ (FailAlike TestResult.Widens)
      ((a.selectedTests o).map (a.analyzeTest o))
      ((a.selectedTests o).map (a.analyzeTest { o with registry := wide })) := by
    rw [List.forall₂_map_left_iff, List.forall₂_map_right_iff]
    exact List.forall₂_same.2 fun m _ => analyzeTest_widens h m
  simp only [analyze, ← selectedTests_widens h]
  split
  · exact .error _
  · split
    · exact .error _
    · exact .ok (Report.widens_ofOutcomes a.name rfl houtcomes)

/-- **More assertion types only take away violations for no assertions and
add violations for too many.** Under the same rules, with any options, an
analysis with more assertion types selects the same tests; each of them
fails alike, or its results are related; and the two analyses fail alike
or give reports with the same errors and related results. -/
theorem analyze_widens_of_subset (a : Assembly) (o : Options) (r : Registry)
    {types types' : List String} (h : types ⊆ types') :
    a.selectedTests { o with registry := r.withAssertionTypes types } =
        a.selectedTests { o with registry := r.withAssertionTypes types' } ∧
      (∀ m, FailAlike TestResult.Widens
        (a.analyzeTest { o with registry := r.withAssertionTypes types } m)
        (a.analyzeTest { o with registry := r.withAssertionTypes types' } m)) ∧
      FailAlike (Report.Widens o.maxViolations)
        (a.analyze { o with registry := r.withAssertionTypes types })
        (a.analyze { o with registry := r.withAssertionTypes types' }) := by
  let narrow : Options := { o with registry := r.withAssertionTypes types }
  have hwidens : narrow.registry.Widens (r.withAssertionTypes types') :=
    r.widens_withAssertionTypes h
  exact ⟨selectedTests_widens hwidens, analyzeTest_widens hwidens, analyze_widens hwidens⟩

/-- A test whose only assertion is of a type that frameworks do not have,
and one that branches and makes two other assertions besides. -/
def ownAssertDocument : ListingDocument :=
  testDocument 0 [("void T::M()", "call void Y::F()\nret"), ("void T::N()",
    "call void X::F()\ncall void X::F()\ncall void Y::F()\nldc.i4.0\nbrtrue IL_0005\nret")]

/-- The first test loses its violation. The second keeps those for its
assertions and for its branch. -/
theorem analyze_widens_of_subset_ownAssertDocument :
    ["X"] ⊆ ["X", "Y"] ∧ ∃ a m n r r' s s' narrow wide,
      ofDocument ownAssertDocument = .ok a ∧ a.methods = [m, n] ∧
      a.analyzeTest { registry := Registry.builtin.withAssertionTypes ["X"] } m = .ok r ∧
      a.analyzeTest { registry := Registry.builtin.withAssertionTypes ["X", "Y"] } m = .ok r' ∧
      a.analyzeTest { registry := Registry.builtin.withAssertionTypes ["X"] } n = .ok s ∧
      a.analyzeTest { registry := Registry.builtin.withAssertionTypes ["X", "Y"] } n = .ok s' ∧
      r.violations.map (·.rule) = [Rule.noAsserts.name] ∧ r'.violations.map (·.rule) = [] ∧
      r.Widens r' ∧
      s.violations.map (·.rule) = [Rule.multipleAsserts.name, Rule.conditionalLogic.name] ∧
      s'.violations.map (·.rule) = [Rule.multipleAsserts.name, Rule.conditionalLogic.name] ∧
      s.Widens s' ∧
      a.analyze { registry := Registry.builtin.withAssertionTypes ["X"] } = .ok narrow ∧
      a.analyze { registry := Registry.builtin.withAssertionTypes ["X", "Y"] } = .ok wide ∧
      Report.Widens 0 narrow wide := by
  have hfound : ((ofDocument ownAssertDocument).toOption.any fun a => a.methods.length == 2 &&
      (a.methods.head?.all fun m => ControlFlow.follows m [[1], []] &&
        [(["X"], [Rule.noAsserts]), (["X", "Y"], [])].all fun (types, rules) =>
          ((TestCase.mk a (Registry.builtin.withAssertionTypes types)
            ⟨m, 0, [(0, [1]), (1, [])]⟩).findings Checks.standard).toOption.map
              (·.map (·.smell.rule)) == some rules) &&
      (a.methods.getLast?.all fun n =>
        ControlFlow.follows n [[1], [2], [3], [4], [5, 5], []] &&
        [["X"], ["X", "Y"]].all fun types =>
          ((TestCase.mk a (Registry.builtin.withAssertionTypes types)
            ⟨n, 0, [(0, [1]), (1, [2]), (2, [3]), (3, [4]), (4, [5, 5]), (5, [])]⟩).findings
              Checks.standard).toOption.map (·.map (·.smell.rule)) ==
                some [.multipleAsserts, .conditionalLogic])) = true := by
    decide +kernel
  obtain ⟨a, ha, h⟩ := (Option.any_eq_true _ _).1 hfound
  simp only [Bool.and_eq_true, beq_iff_eq] at h
  obtain ⟨⟨hlength, hfirst⟩, hlast⟩ := h
  obtain ⟨m, n, hmethods⟩ := List.length_eq_two.1 hlength
  simp only [hmethods, List.head?_cons, List.getLast?_cons_cons, List.getLast?_singleton,
    Option.all_some, Bool.and_eq_true, List.all_cons, List.all_nil, beq_iff_eq, and_true]
    at hfirst hlast
  obtain ⟨hfollows, hnarrow, hwide⟩ := hfirst
  obtain ⟨hfollows', hnarrow', hwide'⟩ := hlast
  have hrow : explore (fun p => (.ok ([[1], []].getD p []) : Except FlowError (List Nat)))
      2 [0] [] = .complete [(0, [1]), (1, [])] := by
    simp [explore, Adjacency.has, Adjacency.fresh]
  have hrows : explore (fun p => (.ok ([[1], [2], [3], [4], [5, 5], []].getD p []) :
      Except FlowError (List Nat))) 6 [0] [] =
        .complete [(0, [1]), (1, [2]), (2, [3]), (3, [4]), (4, [5, 5]), (5, [])] := by
    simp [explore, Adjacency.has, Adjacency.fresh]
  obtain ⟨r, hr, hrules⟩ := exists_result_of_follows
    (o := { registry := Registry.builtin.withAssertionTypes ["X"] }) _ hrow hfollows hnarrow
  obtain ⟨r', hr', hrules'⟩ := exists_result_of_follows
    (o := { registry := Registry.builtin.withAssertionTypes ["X", "Y"] }) _ hrow hfollows hwide
  obtain ⟨s, hs, hmany⟩ := exists_result_of_follows
    (o := { registry := Registry.builtin.withAssertionTypes ["X"] }) _ hrows hfollows' hnarrow'
  obtain ⟨s', hs', hmany'⟩ := exists_result_of_follows
    (o := { registry := Registry.builtin.withAssertionTypes ["X", "Y"] }) _ hrows hfollows' hwide'
  have hsubset : ["X"] ⊆ ["X", "Y"] := by simp
  obtain ⟨-, houtcome, hreports⟩ := analyze_widens_of_subset a {} .builtin hsubset
  obtain ⟨_, hr'', hwidens⟩ := (houtcome m).exists_eq_ok hr
  obtain ⟨_, hs'', hwidens'⟩ := (houtcome n).exists_eq_ok hs
  cases hr'.symm.trans hr''
  cases hs'.symm.trans hs''
  obtain ⟨narrow, hn⟩ : ∃ report,
      a.analyze { registry := Registry.builtin.withAssertionTypes ["X"] } = .ok report :=
    exists_report rfl (absurd rfl)
  obtain ⟨wide, hw, hreport⟩ := hreports.exists_eq_ok hn
  exact ⟨hsubset, a, m, n, r, r', s, s', narrow, wide, toOption_eq_some.1 ha, hmethods, hr, hr',
    hs, hs', hrules, hrules', hwidens, hmany, hmany', hwidens', hn, hw, hreport⟩

end Assembly

end SmellCheck
