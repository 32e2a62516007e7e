import SmellCheck.Proofs.Analysis.Results
import SmellCheck.Proofs.Digraph.Preorder
import SmellCheck.Proofs.Testing.Asserting
/-!
# What the outcome of a test depends on

A test looks at its assembly only to link calls, and the calls that it
links are those of the methods that it reaches. So two assemblies that
link these alike have the same call graph for the test
(`Assembly.callGraph_eq`): the exploration asks for the callees of the
methods that it has reached, and of no others. From there on everything
is computed alike: which methods assert, where the assertion calls are,
and what the rules find.

All other methods count for nothing. They may be added, removed or put in
another order, and it does not matter whether they can be analyzed.
-/

namespace SmellCheck

namespace Assembly

variable {a b : Assembly} {m : Method}

/-! ## The call graph -/

/-- **The assemblies link the calls of a method alike**: what its body
names is the same method in both, or a method of neither. -/
def LinksAlike (a b : Assembly) (m : Method) : Prop :=
  ∀ ins ∈ m.body, ∀ s, ins.method? = some s → a.resolve? s = b.resolve? s

theorem LinksAlike.callees_eq (h : a.LinksAlike b m) : a.callees m = b.callees m := by
  have hlinked : (m.body.filterMap fun ins => ins.method?.bind a.resolve?) =
      m.body.filterMap fun ins => ins.method?.bind b.resolve? := by
    refine List.filterMap_congr fun ins hins => ?_
    cases hs : ins.method? with
    | none => rfl
    | some s => exact h ins hins s hs
  rw [callees, callees, hlinked]

/-- **Assemblies that link the calls of what a test reaches alike have the
same call graph for it.** It is enough that they do so for what is
reached in one of them. -/
theorem callGraph_eq (h : ∀ k ∈ (a.callGraph m).nodes, a.LinksAlike b k) :
    a.callGraph m = b.callGraph m :=
  (enclosure_callees a m).ofHeads_congr (enclosure_callees b m) fun k hk => (h k hk).callees_eq

/-- What is reached by calls are methods of the assembly. -/
theorem callGraph_nodes_subset : (a.callGraph m).nodes ⊆ m :: a.methods := by
  intro k hk
  rcases Relation.ReflTransGen.cases_tail (mem_nodes_callGraph.1 hk) with rfl | ⟨caller, -, hcall⟩
  · exact List.mem_cons_self
  · obtain ⟨-, -, s, -, hresolve⟩ := hcall
    exact List.mem_cons_of_mem m (List.mem_of_find?_eq_some hresolve)

end Assembly

namespace TestCase

variable {tc tc' : TestCase}

/-! ## What the rules read -/

theorem positionsOf_congr (tc : TestCase) {p q : Instruction → Bool}
    (h : ∀ ins ∈ tc.body, p ins = q ins) : tc.positionsOf p = tc.positionsOf q := by
  refine List.filter_congr fun position _ => ?_
  cases hins : tc.body[position]? with
  | none => rfl
  | some ins => exact h ins (List.mem_of_getElem? hins)

/-- Branches are a matter of the control flow. -/
theorem conditionalLogic_congr (hcontrol : tc.control = tc'.control) :
    tc.conditionalLogic = tc'.conditionalLogic := by
  have hpaths : tc.paths = tc'.paths := congrArg ControlFlow.paths hcontrol
  have hbody : tc.body = tc'.body := congrArg (·.method.body) hcontrol
  unfold conditionalLogic
  rw [hpaths, hbody]

/-- Expected values are looked at where an assertion takes one first. -/
theorem computedExpected_congr (hcontrol : tc.control = tc'.control)
    (hsites : tc.expectationSites = tc'.expectationSites) :
    tc.computedExpected = tc'.computedExpected := by
  simp only [computedExpected, tracker, body, method, hcontrol, hsites]

/-- **All that the rules read is the control flow and the sites.** -/
theorem check_congr (hcontrol : tc.control = tc'.control)
    (hsites : tc.assertionSites = tc'.assertionSites)
    (hexpected : tc.expectationSites = tc'.expectationSites) (limit : Nat) (rule : Rule) :
    tc.check limit rule = tc'.check limit rule := by
  cases rule with
  | noAsserts => simp only [check, noAsserts, hsites]
  | multipleAsserts =>
    have hpaths : tc.paths.map tc.sitesOn = tc'.paths.map tc'.sitesOn := by
      rw [paths, paths, hcontrol]
      exact List.map_congr_left fun path _ => by rw [sitesOn, sitesOn, hsites]
    simp only [check, multipleAsserts, hpaths]
  | conditionalLogic => simp only [check, conditionalLogic_congr hcontrol]
  | computedExpected => exact computedExpected_congr hcontrol hexpected

/-! ## The test in another assembly -/

/-- The method of the test case in another assembly. -/
def inAssembly (tc : TestCase) (b : Assembly) : TestCase :=
  { tc with assembly := b }

section

variable {b : Assembly} (h : ∀ k ∈ tc.calls.nodes, tc.assembly.LinksAlike b k)

include h

/-- The same methods assert. -/
theorem isAsserting_inAssembly (k : Method) :
    (tc.inAssembly b).isAsserting k = tc.isAsserting k := by
  have hcalls : (tc.inAssembly b).calls = tc.calls := (Assembly.callGraph_eq h).symm
  rw [isAsserting, isAsserting, hcalls]
  rfl

/-- The same instructions are assertion calls. -/
theorem isAssertionCall_inAssembly {ins : Instruction} (hins : ins ∈ tc.body) :
    (tc.inAssembly b).isAssertionCall ins = tc.isAssertionCall ins := by
  have hmethod : tc.assembly.LinksAlike b tc.method :=
    h _ (Assembly.closed_callGraph tc.assembly tc.method).root_mem
  cases hs : ins.method? with
  | none => simp only [isAssertionCall, hs, Option.any_none]
  | some s =>
    have hresolve : (tc.inAssembly b).assembly.resolve? s = tc.assembly.resolve? s :=
      (hmethod ins hins s hs).symm
    simp only [isAssertionCall, hs, Option.any_some, hresolve,
      funext (isAsserting_inAssembly h)]
    rfl

theorem assertionSites_inAssembly : (tc.inAssembly b).assertionSites = tc.assertionSites :=
  positionsOf_congr tc fun _ hins => isAssertionCall_inAssembly h hins

/-- **The rules find the same.** -/
theorem findings_inAssembly (checks : Checks) :
    (tc.inAssembly b).findings checks = tc.findings checks := by
  have hsites := assertionSites_inAssembly h
  have hexpected : (tc.inAssembly b).expectationSites = tc.expectationSites := by
    rw [expectationSites, hsites]
    rfl
  have hcontrol : (tc.inAssembly b).control = tc.control := rfl
  simp only [findings, check_congr hcontrol hsites hexpected]

end

/-- Reports name the test alike if the assemblies are. -/
theorem violation_inAssembly (tc : TestCase) {b : Assembly} (hname : tc.assembly.name = b.name)
    (severity : Rule → String) : (tc.inAssembly b).violation severity = tc.violation severity := by
  funext f
  simp only [violation, Assembly.target, TestTarget.qualifiedName, hname]
  rfl

end TestCase

namespace Assembly

/-- **The outcome of a test depends only on what it calls.** Let two
assemblies of one name link the calls in the bodies of all methods alike
that the test reaches in the first of them. Then the test reaches the same
methods in the second, and both give the same result or the same error
for it, whatever other methods they have. -/
theorem analyzeTest_eq_of_linksAlike {a b : Assembly} {m : Method} (hname : a.name = b.name)
    (h : ∀ k ∈ (a.callGraph m).nodes, a.LinksAlike b k) (o : Options) :
    a.callGraph m = b.callGraph m ∧ a.analyzeTest o m = b.analyzeTest o m := by
  refine ⟨callGraph_eq h, ?_⟩
  have htarget : a.target m = b.target m := by simp only [target, hname]
  have hexamine : a.examine o m = b.examine o m := by
    rw [examine, examine, TestCase.ofMethod, TestCase.ofMethod]
    cases hc : ControlFlow.ofMethod m with
    | error e => rfl
    | ok c =>
      have hcalls : ∀ k ∈ (TestCase.mk a o.registry c).calls.nodes, a.LinksAlike b k := by
        intro k hk
        rw [TestCase.calls, TestCase.method, ControlFlow.method_of_ofMethod hc] at hk
        exact h k hk
      have hfindings : (TestCase.mk b o.registry c).findings o.effectiveChecks = _ :=
        TestCase.findings_inAssembly hcalls o.effectiveChecks
      have hsites : (TestCase.mk b o.registry c).assertionSites = _ :=
        TestCase.assertionSites_inAssembly hcalls
      have hviolation : (TestCase.mk b o.registry c).violation o.severity = _ :=
        TestCase.violation_inAssembly ⟨a, o.registry, c⟩ hname o.severity
      simp only [Except.map, Except.mapError, bind, Except.bind, hfindings, hsites, htarget,
        hviolation]
      rfl
  rw [analyzeTest, analyzeTest, hexamine, htarget]

/-- A test that calls another one. -/
def callDocument : ListingDocument :=
  testDocument 0 [("void T::M()", "call void T::H()\nret"), ("void T::H()", "ret")]

/-- The same tests in another order, around one that cannot be analyzed. -/
def shuffledDocument : ListingDocument :=
  testDocument 0 [("void T::H()", "ret"), ("void T::N()", "jmp void T::M()"),
    ("void T::M()", "call void T::H()\nret")]

theorem analyzeTest_eq_of_linksAlike_callDocument :
    ∃ a b m, ofDocument callDocument = .ok a ∧ ofDocument shuffledDocument = .ok b ∧
      m ∈ a.methods ∧ m ∈ b.methods ∧ Registry.builtin.isTest m = true ∧
      a.methods.length < b.methods.length ∧ (∀ k ∈ (a.callGraph m).nodes, a.LinksAlike b k) ∧
      a.callGraph m = b.callGraph m ∧ a.analyzeTest {} m = b.analyzeTest {} m := by
  have hdocuments : ((ofDocument callDocument).toOption.any fun a =>
      (ofDocument shuffledDocument).toOption.any fun b => a.methods.any fun m =>
        a.name == b.name && b.methods.contains m && Registry.builtin.isTest m &&
          decide (a.methods.length < b.methods.length) &&
          (m :: a.methods).all fun k => k.body.all fun ins => ins.method?.all fun s =>
            a.resolve? s == b.resolve? s) = true := by
    decide +kernel
  obtain ⟨a, ha, h⟩ := (Option.any_eq_true _ _).1 hdocuments
  obtain ⟨b, hb, h⟩ := (Option.any_eq_true _ _).1 h
  obtain ⟨m, hm, h⟩ := List.any_eq_true.1 h
  simp only [Bool.and_eq_true, beq_iff_eq, List.contains_iff_mem, decide_eq_true_eq,
    List.all_eq_true, Option.all_eq_true] at h
  obtain ⟨⟨⟨⟨hname, hm'⟩, htest⟩, hlength⟩, hlinks⟩ := h
  have halike : ∀ k ∈ (a.callGraph m).nodes, a.LinksAlike b k := fun k hk =>
    hlinks k (callGraph_nodes_subset hk)
  obtain ⟨hgraph, houtcome⟩ := analyzeTest_eq_of_linksAlike hname halike {}
  exact ⟨a, b, m, toOption_eq_some.1 ha, toOption_eq_some.1 hb, hm, hm', htest, hlength, halike,
    hgraph, houtcome⟩

end Assembly

end SmellCheck
