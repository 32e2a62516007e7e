import SmellCheck.Proofs.FirstOccurrences
import SmellCheck.Proofs.Flow.Coverage
import SmellCheck.Proofs.Testing.Asserting
import SmellCheck.Smell.Finding
/-!
# Tests with many assertions

The rule on many assertions counts the assertion calls on each enumerated
path, a call once however often the path comes by. A path with more of
them than the limit is reported.

The enumerated paths meet no position more than twice, and here this bound
can be seen. An execution that goes round a loop a third time may come by
a call that no enumerated path makes together with the others
(`exists_exceeds_of_multipleAsserts_eq_nil`). So what the rule reports is
exact for the executions that meet no position more than twice, and for
these only.
-/

namespace SmellCheck

namespace TestCase

variable {m : Method} {tc : TestCase} {limit : Nat} {w : List Nat}

/-! ## The calls on a path -/

/-- **The positions come by more assertion calls than the limit**, each
call counted once. -/
def Exceeds (tc : TestCase) (limit : Nat) (w : List Nat) : Prop :=
  ∃ calls : List Nat, calls.Nodup ∧ limit < calls.length ∧
    ∀ p ∈ calls, p ∈ w ∧ ∃ ins, tc.body[p]? = some ins ∧ tc.isAssertionCall ins = true

theorem mem_sitesOn {p : Nat} : p ∈ tc.sitesOn w ↔
    p ∈ w ∧ ∃ ins, tc.body[p]? = some ins ∧ tc.isAssertionCall ins = true := by
  rw [sitesOn, List.mem_eraseDups, List.mem_filter, List.contains_iff_mem, assertionSites,
    mem_positionsOf]

/-- The sites on a path are all calls that can be counted. -/
theorem exceeds_iff : tc.Exceeds limit w ↔ limit < (tc.sitesOn w).length := by
  constructor
  · rintro ⟨calls, hnodup, hlimit, hcalls⟩
    have hsub : calls ⊆ tc.sitesOn w := fun p hp => mem_sitesOn.2 (hcalls p hp)
    exact Nat.lt_of_lt_of_le hlimit (hnodup.subperm hsub).length_le
  · intro hlimit
    exact ⟨tc.sitesOn w, nodup_eraseDups _, hlimit, fun p => mem_sitesOn.1⟩

/-! ## The longest list -/

/-- Some list is longer than the limit exactly if the longest is. -/
theorem lt_length_longest_iff {lists : List (List Nat)} :
    limit < (longest lists).length ↔ ∃ sites ∈ lists, limit < sites.length := by
  cases lists with
  | nil => simp [longest]
  | cons sites rest =>
    rw [longest]
    induction rest generalizing sites with
    | nil => simp
    | cons next rest ih =>
      rw [List.foldl_cons, ih]
      split <;> grind

/-- **A finding means that an enumerated path goes past the limit.** -/
theorem multipleAsserts_ne_nil :
    tc.multipleAsserts limit ≠ [] ↔ ∃ w ∈ tc.paths, tc.Exceeds limit w := by
  have hfound : tc.multipleAsserts limit ≠ [] ↔
      limit < (longest (tc.paths.map tc.sitesOn)).length := by
    cases hposition : (longest (tc.paths.map tc.sitesOn))[limit]? with
    | none => simpa [multipleAsserts, hposition] using List.getElem?_eq_none_iff.1 hposition
    | some position =>
      simpa [multipleAsserts, hposition] using (List.getElem?_eq_some_iff.1 hposition).1
  rw [hfound, lt_length_longest_iff]
  simp only [List.mem_map, exists_exists_and_eq_and, exceeds_iff]

/-- **The rule on many assertions is exact over the executions that meet
no position more than twice**: it reports a finding if and only if one of
them comes by more assertion calls than the limit. -/
theorem multipleAsserts_iff_exceeds {d : ListingDocument} {a : Assembly} {r : Registry}
    (ha : Assembly.ofDocument d = .ok a) (hm : m ∈ a.methods) (htc : ofMethod a r m = .ok tc)
    (limit : Nat) :
    ∃ findings, tc.check limit .multipleAsserts = .ok findings ∧
      (findings ≠ [] ↔ ∃ w, ControlFlow.IsExecution m w ∧ (∀ p, w.count p ≤ 2) ∧
        tc.Exceeds limit w) := by
  have hbody := Assembly.wellFormed_of_ofDocument ha hm
  obtain ⟨c, hc, rfl⟩ := map_eq_ok.1 htc
  refine ⟨_, rfl, ?_⟩
  rw [multipleAsserts_ne_nil]
  refine exists_congr fun w => ?_
  rw [← and_assoc]
  exact and_congr_left' (ControlFlow.mem_paths_iff hbody hc)

/-- A loop that makes one assertion or another on each lap. -/
def lapsListing : ListingDocument :=
  Assembly.testDocument 0 [("void T::M()",
    "ldc.i4.0\nbrtrue IL_0004\ncall void Xunit.Assert::Fail()\nbr IL_0005\n" ++
      "call void Xunit.Assert::Fail()\nldc.i4.0\nbrtrue IL_0000\nret")]

/-- Two laps make both assertions. -/
theorem multipleAsserts_iff_exceeds_lapsListing :
    ∃ a m tc w findings, Assembly.ofDocument lapsListing = .ok a ∧ m ∈ a.methods ∧
      ofMethod a Registry.builtin m = .ok tc ∧ ControlFlow.IsExecution m w ∧
      (∀ p, w.count p ≤ 2) ∧ tc.Exceeds 1 w ∧
      tc.check 1 .multipleAsserts = .ok findings ∧ findings ≠ [] := by
  obtain ⟨a, tc, ha, hm, htc, h⟩ := exists_of_any lapsListing .builtin
    [[1], [2, 4], [3], [5], [5], [6], [7, 0], []]
    [(0, [1]), (1, [2, 4]), (2, [3]), (3, [5]), (5, [6]), (6, [7, 0]), (7, []), (4, [5])]
    (fun tc => tc.paths.contains [0, 1, 2, 3, 5, 6, 0, 1, 4, 5, 6, 7] &&
      tc.sitesOn [0, 1, 2, 3, 5, 6, 0, 1, 4, 5, 6, 7] == [2, 4])
    (by simp [explore, Adjacency.has, Adjacency.fresh]) (by decide +kernel)
  obtain ⟨hpath, hsites⟩ := Bool.and_eq_true_iff.1 h
  obtain ⟨c, hc, hcontrol⟩ := map_eq_ok.1 htc
  obtain rfl : c = tc.control := congrArg control hcontrol
  have hwell := Assembly.wellFormed_of_ofDocument ha hm
  obtain ⟨hexecution, hcount⟩ :=
    (ControlFlow.mem_paths_iff hwell hc).1 (List.contains_iff_mem.1 hpath)
  have hlimit : 1 < [2, 4].length := by decide
  rw [← eq_of_beq hsites] at hlimit
  have hexceeds := exceeds_iff.2 hlimit
  obtain ⟨findings, hcheck, hiff⟩ := multipleAsserts_iff_exceeds ha hm htc 1
  exact ⟨a, _, tc, _, findings, ha, hm, htc, hexecution, hcount, hexceeds, hcheck,
    hiff.2 ⟨_, hexecution, hcount, hexceeds⟩⟩

/-! ## A third lap -/

/-- A loop around a choice of two assertions, which is left at its top. -/
def choiceListing : ListingDocument :=
  Assembly.testDocument 0 [("void T::M()",
    "ldc.i4.0\nswitch (IL_0003, IL_0005)\nret\ncall void Xunit.Assert::Fail()\n" ++
      "br IL_0000\ncall void Xunit.Assert::Fail()\nbr IL_0000")]

/-- **A third lap is not seen.** An execution makes both assertions and
comes back to the top to leave the loop; no finding is reported. -/
theorem exists_exceeds_of_multipleAsserts_eq_nil :
    ∃ a m tc w, Assembly.ofDocument choiceListing = .ok a ∧ m ∈ a.methods ∧
      ofMethod a Registry.builtin m = .ok tc ∧ ControlFlow.IsExecution m w ∧
      tc.Exceeds 1 w ∧ tc.check 1 .multipleAsserts = .ok [] := by
  obtain ⟨a, tc, ha, hm, htc, h⟩ := exists_of_any choiceListing .builtin
    [[1], [2, 3, 5], [], [4], [0], [6], [0]]
    [(0, [1]), (1, [2, 3, 5]), (2, []), (3, [4]), (4, [0]), (5, [6]), (6, [0])]
    (fun tc => tc.control.graph.follow? 0 [0, 1, 0, 0, 0, 2, 0, 0, 0, 0] ==
        some [0, 1, 3, 4, 0, 1, 5, 6, 0, 1, 2] && ControlFlow.isReturn tc.method 2 &&
      (tc.sitesOn [0, 1, 3, 4, 0, 1, 5, 6, 0, 1, 2] == [3, 5] && tc.multipleAsserts 1 == []))
    (by simp [explore, Adjacency.has, Adjacency.fresh]) (by decide +kernel)
  obtain ⟨hwalk, hrule⟩ := Bool.and_eq_true_iff.1 h
  obtain ⟨hfollow, hreturn⟩ := Bool.and_eq_true_iff.1 hwalk
  obtain ⟨hsites, hfindings⟩ := Bool.and_eq_true_iff.1 hrule
  have hexecution : ControlFlow.IsExecution tc.method [0, 1, 3, 4, 0, 1, 5, 6, 0, 1, 2] := by
    have hbody := Assembly.wellFormed_of_ofDocument ha hm
    obtain ⟨c, hc, hcontrol⟩ := map_eq_ok.1 htc
    obtain rfl : c = tc.control := congrArg control hcontrol
    obtain ⟨last, hwalk⟩ := Digraph.walk_of_follow? (eq_of_beq hfollow)
    obtain rfl : last = 2 := Option.some.inj hwalk.getLast?.symm
    exact ⟨2, (ControlFlow.walk_edge_iff hbody hc (ControlFlow.entry_mem_nodes hbody hc)).1 hwalk,
      hreturn⟩
  refine ⟨a, _, tc, _, ha, hm, htc, hexecution, exceeds_iff.2 ?_, ?_⟩
  · rw [eq_of_beq hsites]
    decide
  · exact congrArg Except.ok (eq_of_beq hfindings)

end TestCase

end SmellCheck
