import SmellCheck.Proofs.Assembly.Load
import SmellCheck.Proofs.Digraph.Backward
import SmellCheck.Proofs.Flow.Control
import SmellCheck.Smell.Finding
/-!
# Methods that assert

A method asserts if a chain of calls leads from it to a method whose body
calls an assertion. The chain may be empty, and it may go round through
methods that call each other; what is asked of a call is only that the
assembly has the method that it names.

The call graph of a test has everything that the chains from the test
meet, so a walk through it finds out which of its methods assert
(`TestCase.isAsserting_iff`). Marking callers backwards from the methods
that call an assertion gives the same methods, and so does looking at the
test's own calls one by one.
-/

namespace SmellCheck

open Relation

/-! ## Calls -/

namespace Assembly

variable {a : Assembly} {m k : Method}

/-- **A call**: an instruction of the caller names a method that the
assembly has. -/
def Calls (a : Assembly) (m callee : Method) : Prop :=
  ∃ ins ∈ m.body, ∃ s, ins.method? = some s ∧ a.resolve? s = some callee

theorem mem_callees : k ∈ a.callees m ↔ a.Calls m k := by
  simp only [callees, List.mem_eraseDups, List.mem_filterMap, Option.bind_eq_some_iff, Calls]

/-- The test and the methods of the assembly enclose all calls. -/
theorem enclosure_callees (a : Assembly) (m : Method) :
    Digraph.Enclosure a.callees (a.methods.length + 1) m (m :: a.methods) where
  root_mem := List.mem_cons_self
  heads_subset n _ k hk := by
    obtain ⟨ins, -, s, -, hresolve⟩ := mem_callees.1 hk
    exact List.mem_cons_of_mem m (List.mem_of_find?_eq_some hresolve)
  length_le := Nat.le_of_eq List.length_cons

theorem closed_callGraph (a : Assembly) (m : Method) : (a.callGraph m).Closed :=
  (enclosure_callees a m).closed

/-- **The call graph has what chains of calls lead to.** -/
theorem mem_nodes_callGraph : k ∈ (a.callGraph m).nodes ↔ ReflTransGen a.Calls m k := by
  refine (enclosure_callees a m).mem_nodes.trans ?_
  simp only [mem_callees]

/-- From a method of the call graph, its edges lead where calls do. -/
theorem reflTransGen_edge_callGraph {last : Method} (hk : k ∈ (a.callGraph m).nodes) :
    ReflTransGen (a.callGraph m).Edge k last ↔ ReflTransGen a.Calls k last := by
  refine ((enclosure_callees a m).reflTransGen_edge hk).trans ?_
  simp only [mem_callees]

end Assembly

/-- The body of the method calls a method of an assertion type. -/
def Registry.AssertsIn (r : Registry) (m : Method) : Prop :=
  ∃ ins ∈ m.body, ∃ s, ins.method? = some s ∧
    ∃ f ∈ r.frameworks, s.owner ∈ f.assertionTypes

theorem Registry.isAssertion_iff {r : Registry} {s : Signature} :
    r.isAssertion s = true ↔ ∃ f ∈ r.frameworks, s.owner ∈ f.assertionTypes := by
  simp only [isAssertion, Framework.isAssertion, List.any_eq_true, List.contains_iff_mem]

theorem Registry.callsAssertion_iff {r : Registry} {m : Method} :
    r.callsAssertion m = true ↔ r.AssertsIn m := by
  simp only [callsAssertion, List.any_eq_true, Option.any_eq_true, isAssertion_iff, AssertsIn]

/-- **A chain of calls leads to an assertion.** -/
def Assembly.ReachesAssertion (a : Assembly) (r : Registry) (m : Method) : Prop :=
  ∃ last, ReflTransGen a.Calls m last ∧ r.AssertsIn last

/-- Such a chain is empty, or goes on behind a first call. -/
theorem Assembly.reachesAssertion_iff {a : Assembly} {r : Registry} {m : Method} :
    a.ReachesAssertion r m ↔
      r.AssertsIn m ∨ ∃ callee, a.Calls m callee ∧ a.ReachesAssertion r callee := by
  constructor
  · rintro ⟨last, hchain, hlast⟩
    rcases ReflTransGen.cases_head hchain with rfl | ⟨callee, hcall, hchain⟩
    · exact Or.inl hlast
    · exact Or.inr ⟨callee, hcall, last, hchain, hlast⟩
  · rintro (hm | ⟨callee, hcall, last, hchain, hlast⟩)
    · exact ⟨m, .refl, hm⟩
    · exact ⟨last, .head hcall hchain, hlast⟩

/-! ## The methods of a test -/

namespace TestCase

variable {a : Assembly} {r : Registry} {m k : Method} {tc : TestCase}

/-- A method of the call graph is asserting if a chain of calls leads
from it to an assertion. -/
theorem isAsserting_iff (hk : k ∈ tc.calls.nodes) :
    tc.isAsserting k = true ↔ tc.assembly.ReachesAssertion tc.registry k := by
  have hclosed : tc.calls.Closed := Assembly.closed_callGraph _ _
  rw [isAsserting, List.any_eq_true]
  refine exists_congr fun last => ?_
  rw [Digraph.mem_walkFrom hclosed hk, Registry.callsAssertion_iff]
  exact and_congr_left' (Assembly.reflTransGen_edge_callGraph hk)

theorem mem_asserting : k ∈ tc.asserting ↔
    k ∈ tc.calls.nodes ∧ tc.assembly.ReachesAssertion tc.registry k := by
  rw [asserting, List.mem_filter]
  exact and_congr_right isAsserting_iff

/-- **Marking callers finds the asserting methods**, from the methods that
call an assertion. -/
theorem exists_run_asserting {rounds : Nat} (hrounds : tc.calls.order ≤ rounds) :
    ∃ marked, Marking.run tc.calls rounds
        (.markAll ⟨[], []⟩ (tc.calls.nodes.filter tc.registry.callsAssertion)) =
          some (.ok marked) ∧
      ∀ k, k ∈ marked ↔ k ∈ tc.asserting := by
  have hclosed : tc.calls.Closed := Assembly.closed_callGraph _ _
  have hseeds : tc.calls.nodes.filter tc.registry.callsAssertion ⊆ tc.calls.nodes :=
    List.filter_subset_self _
  obtain ⟨marked, hrun, hmarked⟩ := Marking.run_seeded hclosed hseeds hrounds
  refine ⟨marked, hrun, fun k => ?_⟩
  rw [hmarked, mem_asserting]
  constructor
  · rintro ⟨last, hlast, hreach⟩
    have hk := Digraph.mem_nodes_of_reflTransGen hreach (hseeds hlast)
    exact ⟨hk, last, (Assembly.reflTransGen_edge_callGraph hk).1 hreach,
      Registry.callsAssertion_iff.1 (List.mem_filter.1 hlast).2⟩
  · rintro ⟨hk, last, hchain, hlast⟩
    have hnode : last ∈ tc.calls.nodes :=
      Assembly.mem_nodes_callGraph.2 ((Assembly.mem_nodes_callGraph.1 hk).trans hchain)
    exact ⟨last, List.mem_filter.2 ⟨hnode, Registry.callsAssertion_iff.2 hlast⟩,
      (Assembly.reflTransGen_edge_callGraph hk).2 hchain⟩

/-- A test case that is made from a method of a document, in which control
goes as a table says. -/
theorem exists_of_any (d : ListingDocument) (r : Registry) (table : List (List Nat))
    (adjacency : Adjacency Nat) (test : TestCase → Bool)
    (hexplore : explore (fun p => (.ok (table.getD p []) : Except FlowError (List Nat)))
      table.length [0] [] = .complete adjacency)
    (h : ((Assembly.ofDocument d).toOption.any fun a => a.methods.any fun m =>
      ControlFlow.follows m table && test ⟨a, r, m, 0, adjacency⟩) = true) :
    ∃ a tc, Assembly.ofDocument d = .ok a ∧ tc.method ∈ a.methods ∧
      ofMethod a r tc.method = .ok tc ∧ test tc = true := by
  obtain ⟨a, ha, h⟩ := (Option.any_eq_true _ _).1 h
  obtain ⟨m, hm, h⟩ := List.any_eq_true.1 h
  obtain ⟨hfollows, htest⟩ := Bool.and_eq_true_iff.1 h
  have hc := ControlFlow.ofMethod_of_follows adjacency hfollows hexplore
  exact ⟨a, ⟨a, r, m, 0, adjacency⟩, toOption_eq_some.1 ha, hm, map_eq_ok.2 ⟨_, hc, rfl⟩, htest⟩

/-! ## The sites of a test -/

theorem mem_positionsOf {p : Instruction → Bool} {position : Nat} :
    position ∈ tc.positionsOf p ↔ ∃ ins, tc.body[position]? = some ins ∧ p ins = true := by
  rw [positionsOf, List.mem_filter, List.mem_range, Option.any_eq_true]
  refine and_iff_right_of_imp ?_
  rintro ⟨ins, hins, -⟩
  exact (List.getElem?_eq_some_iff.1 hins).1

theorem positionsOf_ne_nil {p : Instruction → Bool} :
    tc.positionsOf p ≠ [] ↔ ∃ ins ∈ tc.body, p ins = true := by
  constructor
  · intro hne
    obtain ⟨position, hmem⟩ := List.exists_mem_of_ne_nil _ hne
    obtain ⟨ins, hins, hp⟩ := mem_positionsOf.1 hmem
    exact ⟨ins, List.mem_of_getElem? hins, hp⟩
  · rintro ⟨ins, hmem, hp⟩
    obtain ⟨position, hposition⟩ := List.mem_iff_getElem?.1 hmem
    exact List.ne_nil_of_mem (mem_positionsOf.2 ⟨ins, hposition, hp⟩)

/-- A method that the test calls belongs to its call graph. -/
theorem mem_calls_of_calls (h : tc.assembly.Calls tc.method k) : k ∈ tc.calls.nodes :=
  Assembly.mem_nodes_callGraph.2 (.single h)

/-- **The sites are found one call at a time**: there is one exactly if a
chain of calls leads from the test to an assertion. -/
theorem assertionSites_ne_nil :
    tc.assertionSites ≠ [] ↔ tc.assembly.ReachesAssertion tc.registry tc.method := by
  rw [assertionSites, positionsOf_ne_nil, Assembly.reachesAssertion_iff]
  simp only [isAssertionCall, Option.any_eq_true, Bool.or_eq_true, Registry.isAssertion_iff]
  constructor
  · rintro ⟨ins, hins, s, hs, hassertion | ⟨callee, hresolve, hasserting⟩⟩
    · exact Or.inl ⟨ins, hins, s, hs, hassertion⟩
    · have hcall : tc.assembly.Calls tc.method callee := ⟨ins, hins, s, hs, hresolve⟩
      exact Or.inr ⟨callee, hcall, (isAsserting_iff (mem_calls_of_calls hcall)).1 hasserting⟩
  · rintro (⟨ins, hins, s, hs, hassertion⟩ | ⟨callee, hcall, hchain⟩)
    · exact ⟨ins, hins, s, hs, Or.inl hassertion⟩
    · have hasserting := (isAsserting_iff (mem_calls_of_calls hcall)).2 hchain
      obtain ⟨ins, hins, s, hs, hresolve⟩ := hcall
      exact ⟨ins, hins, s, hs, Or.inr ⟨callee, hresolve, hasserting⟩⟩

theorem noAsserts_ne_nil : tc.noAsserts ≠ [] ↔ tc.assertionSites = [] := by
  rw [noAsserts]
  split
  · rename_i h
    simpa using h
  · rename_i h
    simpa using h

/-- **The asserting methods are those from which a chain of calls leads to
an assertion**, in whichever way they are found. The call graph has the
methods that chains of calls lead to from the test; a method of it is
asserting if a chain of zero or more calls leads from it to a method whose
body calls an assertion type; and marking backwards from the methods that
call an assertion ends, within as many rounds as there are methods, with
the asserting ones. The test itself is asserting exactly if it has an
assertion site, and it is reported for having none exactly if no such
chain starts at it. -/
theorem isAsserting_iff_reachesAssertion (htc : ofMethod a r m = .ok tc) (limit : Nat) :
    (∀ k, k ∈ tc.calls.nodes ↔ ReflTransGen a.Calls m k) ∧
    (∀ k ∈ tc.calls.nodes, tc.isAsserting k = true ↔ a.ReachesAssertion r k) ∧
    (∀ rounds, tc.calls.order ≤ rounds → ∃ marked,
      Marking.run tc.calls rounds (.markAll ⟨[], []⟩ (tc.calls.nodes.filter r.callsAssertion)) =
        some (.ok marked) ∧ ∀ k, k ∈ marked ↔ k ∈ tc.asserting) ∧
    (tc.isAsserting m = true ↔ tc.assertionSites ≠ []) ∧
    ∃ findings, tc.check limit .noAsserts = .ok findings ∧
      (findings ≠ [] ↔ ¬ a.ReachesAssertion r m) := by
  obtain ⟨c, hc, rfl⟩ := map_eq_ok.1 htc
  have hmethod := ControlFlow.method_of_ofMethod hc
  subst hmethod
  have hnodes : ∀ k, k ∈ (TestCase.mk a r c).calls.nodes ↔ ReflTransGen a.Calls c.method k :=
    fun k => Assembly.mem_nodes_callGraph
  have hsites : (TestCase.mk a r c).assertionSites ≠ [] ↔ a.ReachesAssertion r c.method :=
    assertionSites_ne_nil
  refine ⟨hnodes, fun k => isAsserting_iff, fun rounds => exists_run_asserting, ?_, _, rfl, ?_⟩
  · exact (isAsserting_iff ((hnodes _).2 .refl)).trans hsites.symm
  · rw [noAsserts_ne_nil, ← hsites, not_not]

/-- A test that calls one of two methods that call each other, the other
of which asserts. -/
def mutualListing : ListingDocument :=
  Assembly.testDocument 0 [("void T::M()", "call void T::Even()\nret"),
    ("void T::Even()", "call void T::Odd()\nret"),
    ("void T::Odd()", "call void T::Even()\ncall void Xunit.Assert::Fail()\nret")]

/-- The chain from the test to the assertion goes through both. -/
theorem isAsserting_iff_reachesAssertion_mutualListing :
    ∃ a m tc, Assembly.ofDocument mutualListing = .ok a ∧ m ∈ a.methods ∧
      ofMethod a Registry.builtin m = .ok tc ∧ ¬ Registry.builtin.AssertsIn m ∧
      tc.isAsserting m = true ∧ tc.assertionSites ≠ [] ∧ tc.check 1 .noAsserts = .ok [] := by
  have hlisting : ((Assembly.ofDocument mutualListing).toOption.any fun a => a.methods.any fun m =>
      ControlFlow.follows m [[1], []] && !Registry.builtin.callsAssertion m &&
        (a.callees m).any fun even => (a.callees even).any fun odd =>
          (a.callees odd).contains even && Registry.builtin.callsAssertion odd) = true := by
    decide +kernel
  obtain ⟨a, ha, h⟩ := (Option.any_eq_true _ _).1 hlisting
  obtain ⟨m, hm, h⟩ := List.any_eq_true.1 h
  obtain ⟨h, hcalls⟩ := Bool.and_eq_true_iff.1 h
  obtain ⟨hfollows, hnone⟩ := Bool.and_eq_true_iff.1 h
  obtain ⟨even, heven, h⟩ := List.any_eq_true.1 hcalls
  obtain ⟨odd, hodd, h⟩ := List.any_eq_true.1 h
  obtain ⟨-, hasserts⟩ := Bool.and_eq_true_iff.1 h
  have hc := ControlFlow.ofMethod_of_follows [(0, [1]), (1, [])] hfollows
    (by simp [explore, Adjacency.has, Adjacency.fresh])
  have htc : ofMethod a Registry.builtin m = .ok _ := map_eq_ok.2 ⟨_, hc, rfl⟩
  have hchain : a.ReachesAssertion Registry.builtin m :=
    ⟨odd, .head (Assembly.mem_callees.1 heven) (.single (Assembly.mem_callees.1 hodd)),
      Registry.callsAssertion_iff.1 hasserts⟩
  obtain ⟨hnodes, hasserting, -, hsites, findings, hcheck, hfindings⟩ :=
    isAsserting_iff_reachesAssertion htc 1
  have hmethod := (hasserting m ((hnodes m).2 .refl)).2 hchain
  obtain rfl : findings = [] := by
    by_contra hne
    exact hfindings.1 hne hchain
  refine ⟨a, m, _, toOption_eq_some.1 ha, hm, htc, ?_, hmethod, hsites.1 hmethod, hcheck⟩
  rw [← Registry.callsAssertion_iff]
  simpa using hnone

end TestCase

end SmellCheck
