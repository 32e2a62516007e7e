import SmellCheck.Proofs.Analysis.Origins
import SmellCheck.Proofs.Smell.Expectation
/-!
# The calls that findings name

A finding of the rule on expected values names a method. The method was
called, for a result and not for a new object, and the expected value of
the first visit on some path was made from what the call gave
(`TestCase.exists_computedByFirstOn_of_computedExpected`). So the receiver
of an assertion is not mistaken for what it expects, and nothing is
reported that no path accounts for.
-/

namespace SmellCheck

open Relation

namespace Replay

variable {m : Method} {r : Replay} {id : ValueId} {name : String}

/-- **The value is computed by the named method**: itself, or a value that
it was made from in any number of steps, is the result of a call of a
method with this full name. -/
def IsComputedBy (m : Method) (r : Replay) (name : String) (id : ValueId) : Prop :=
  ∃ k x ins callee, ReflTransGen r.MadeFrom id k ∧ r.value? k = some x ∧
    m.body[x.producer]? = some ins ∧ (ins.opcode.name = "call" ∨ ins.opcode.name = "callvirt") ∧
      ins.method? = some callee ∧ callee.fullName = name

/-- **On the path, the first visit to the site expects a value that the
named method computed.** -/
def ComputedByFirstOn (m : Method) (site : Nat) (name : String) (path : List Nat) : Prop :=
  ∃ r, run m path = .ok r ∧ ∃ v, (visits m {} path).find? (·.position == site) = some v ∧
    ∃ id, (v.arguments m).head? = some id ∧ IsComputedBy m r name id

/-- A value that was made from nothing is computed by its own producer. -/
theorem IsComputedBy.fullName_eq {x : Value} {ins : Instruction} {callee : Signature}
    (h : IsComputedBy m r name id) (hx : r.value? id = some x) (hparents : x.parents = [])
    (hins : m.body[x.producer]? = some ins) (hcallee : ins.method? = some callee) :
    callee.fullName = name := by
  obtain ⟨k, y, ins', callee', hmade, hy, hins', -, hcallee', hname⟩ := h
  rcases ReflTransGen.cases_head hmade with rfl | ⟨parent, ⟨x', hx', hparent⟩, -⟩
  · rw [hx] at hy
    cases hy
    rw [hins] at hins'
    cases hins'
    rw [hcallee] at hcallee'
    cases hcallee'
    exact hname
  · rw [hx] at hx'
    cases hx'
    rw [hparents] at hparent
    exact absurd hparent List.not_mem_nil

/-- A path that computes the expected value of a first visit comes by. -/
theorem ComputedByFirstOn.mem_path {site : Nat} {path : List Nat}
    (h : ComputedByFirstOn m site name path) (hpath : ControlFlow.IsExecution m path) :
    site ∈ path := by
  obtain ⟨r, hr, v, hv, -⟩ := h
  rw [← map_position_visits (steps_of_run hr) hpath.exists_instruction]
  have hposition := (List.find?_eq_some_iff_append.1 hv).1
  exact List.mem_map.2 ⟨v, List.mem_of_find?_eq_some hv, eq_of_beq hposition⟩

end Replay

namespace TestCase

open Replay

variable {m : Method} {tc : TestCase} {site : Nat} {callee : Signature}

/-- **The call that the rule finds**, walking back from a value, computed
it. -/
theorem isComputedBy_of_computingCall? {r : Replay} {id : ValueId} (hm : m.body.WellFormed)
    (hr : r.Grounded) (hid : r.Names id) {path : List Nat}
    (h : computingCall? m.body (.ofReplay path r) id = some callee) :
    IsComputedBy m r callee.fullName id := by
  obtain ⟨k, hk, hcall⟩ := List.exists_of_findSome?_eq_some h
  obtain ⟨x, hx, hcall⟩ := Option.bind_eq_some_iff.1 hcall
  obtain ⟨ins, hins, hcall⟩ := Option.bind_eq_some_iff.1 hcall
  rw [ValueGraph.value?_ofReplay] at hx
  obtain ⟨hname, hcallee⟩ := (computing?_eq_some (hm ins (List.mem_of_getElem? hins))).1 hcall
  exact ⟨k, x, ins, callee, (ValueGraph.mem_provenance hr hid).1 hk, hx, hins, hname, hcallee,
    rfl⟩

/-- **The call that a path is reported for** computed the expected value
of the first visit. -/
theorem computedByFirstOn_of_computedExpectation? (hm : m.body.WellFormed)
    (ht : ∃ t, ValueTracker.ofMethod m = .ok t) {path : List Nat} {r : Replay}
    (hpath : ControlFlow.IsExecution m path) (hr : Replay.run m path = .ok r)
    (h : computedExpectation? m.body (.ofReplay path r) site = some callee) :
    ComputedByFirstOn m site callee.fullName path := by
  obtain ⟨id, hid, hcall⟩ := Option.bind_eq_some_iff.1 h
  obtain ⟨-, hvalue⟩ := ValueGraph.mem_consumedAt.1 (List.mem_of_head? hid)
  obtain ⟨x, hx, -⟩ := (Option.any_eq_true _ _).1 hvalue
  rw [ValueGraph.head?_consumedAt hm ht hpath hr] at hid
  obtain ⟨v, hv, hfirst⟩ := Option.bind_eq_some_iff.1 hid
  exact ⟨r, hr, v, hv, id, hfirst,
    isComputedBy_of_computingCall? hm (grounded_of_run hr) (names_iff.2 ⟨x, hx⟩) hcall⟩

/-- Where there is a site the rule tracks values. -/
theorem exists_tracker_of_computedExpected {findings : List Finding}
    (h : tc.computedExpected = .ok findings) (hsite : site ∈ tc.expectationSites) :
    ∃ t, tc.tracker = .ok t := by
  have hsites : ¬ tc.expectationSites.isEmpty = true := by
    rw [List.isEmpty_iff]
    exact List.ne_nil_of_mem hsite
  rw [computedExpected, if_neg hsites] at h
  obtain ⟨t, ht, -⟩ := map_eq_ok.1 h
  exact ⟨t, ht⟩

/-- **The rule on expected values invents nothing, and stays silent about
nothing it sees.** No two findings are at one instruction, and each is at
an assertion call that takes the expected value first. The method that
its message names computed the expected value of the first visit on some
enumerated path, which comes by the instruction. And wherever the first
visit on some path expects a computed value, there is a finding. -/
theorem exists_computedByFirstOn_of_computedExpected {a : Assembly} {registry : Registry}
    {limit : Nat} {findings : List Finding} (hm : m.body.WellFormed)
    (htc : ofMethod a registry m = .ok tc)
    (hcheck : tc.check limit .computedExpected = .ok findings) :
    (findings.map (·.position)).Nodup ∧
      (∀ f ∈ findings,
        (∃ ins, m.body[f.position]? = some ins ∧ tc.isAssertionCall ins = true ∧
          tc.expectsFirst ins = true) ∧
        ∃ name, f.smell.message = "expected value is computed by " ++ name ∧
          ∃ path ∈ tc.paths, f.position ∈ path ∧ ComputedByFirstOn m f.position name path) ∧
      ∀ site ins, m.body[site]? = some ins → tc.isAssertionCall ins = true →
        tc.expectsFirst ins = true → (∃ path ∈ tc.paths, ComputedFirstOn m site path) →
          ∃ f ∈ findings, f.position = site := by
  obtain ⟨-, -, hbody⟩ := method_eq_of_ofMethod htc
  obtain ⟨c, hc, rfl⟩ := map_eq_ok.1 htc
  obtain rfl := ControlFlow.method_of_ofMethod hc
  refine ⟨(reportOnce_of_check hbody hcheck).nodup, fun f hf => ?_, ?_⟩
  · obtain ⟨hsite, t, ht, vg, hvg, callee, hcallee, hsmell⟩ :=
      exists_callee_of_computedExpected hcheck hf
    refine ⟨mem_expectationSites.1 hsite, callee.fullName, by rw [hsmell]; rfl, ?_⟩
    have htracker : ValueTracker.ofMethod c.method = .ok t := bind_eq_ok.2 ⟨c, hc, ht⟩
    obtain ⟨graphs, hgraphs, rfl⟩ := map_eq_ok.1 ht
    obtain ⟨path, hpath, r, hr, rfl⟩ := ValueTracker.exists_run_of_replayPaths hgraphs hvg
    have hexecution := ((ControlFlow.mem_paths_iff hm hc).1 hpath).1
    have hfirst := computedByFirstOn_of_computedExpectation? hm ⟨_, htracker⟩ hexecution hr hcallee
    exact ⟨path, hpath, hfirst.mem_path hexecution, hfirst⟩
  · intro site ins hins hcall hfirst hpath
    -- at a site the rule cannot have done without a tracker
    have hsite := mem_expectationSites.2 ⟨ins, hins, hcall, hfirst⟩
    obtain ⟨t, ht⟩ := exists_tracker_of_computedExpected hcheck hsite
    obtain ⟨findings', hfindings', hreported⟩ := exists_mem_computedExpected hm htc ht
    cases hcheck.symm.trans hfindings'
    exact (hreported site).2 ⟨hsite, hpath⟩

/-- An assertion whose receiver comes from a call and whose expected value
is a constant, and one whose expected value comes from a call. -/
def receiverListing : ListingDocument :=
  Assembly.testDocument 0 [("void T::M()",
    "call T T::G()\nldc.i4.1\nldc.i4.1\n" ++
      "callvirt instance void Xunit.Assert::Equal(int32, int32)\ncall int32 T::F()\n" ++
      "ldc.i4.1\ncall void Xunit.Assert::Equal(int32, int32)\nret")]

/-- The second assertion is reported with the method that was called, and
the first is not reported. -/
theorem exists_computedByFirstOn_of_computedExpected_receiverListing :
    ∃ a m tc findings, Assembly.ofDocument receiverListing = .ok a ∧ m ∈ a.methods ∧
      ofMethod a Registry.builtin m = .ok tc ∧ tc.expectationSites = [3, 6] ∧
      tc.check 1 .computedExpected = .ok findings ∧
      (∃ f ∈ findings, f.position = 6 ∧
        f.smell.message = "expected value is computed by T::F") ∧
      ¬ ∃ f ∈ findings, f.position = 3 := by
  obtain ⟨a, tc, ha, hm, htc, h⟩ := exists_of_any receiverListing .builtin
    [[1], [2], [3], [4], [5], [6], [7], []]
    [(0, [1]), (1, [2]), (2, [3]), (3, [4]), (4, [5]), (5, [6]), (6, [7]), (7, [])]
    (fun tc => tc.tracker.toOption.isSome && tc.expectationSites == [3, 6] &&
      tc.paths == [List.range 8] && (run tc.method (List.range 8)).toOption.any fun r =>
        (((visits tc.method {} (List.range 8)).find? (·.position == 3)).any
          fun v => (v.arguments tc.method).head? == some 2) &&
        (((visits tc.method {} (List.range 8)).find? (·.position == 6)).any
          fun v => (v.arguments tc.method).head? == some 4) &&
        ((r.value? 2).any fun x => x.parents == [] &&
          tc.body[x.producer]?.any (·.opcode.name == "ldc.i4.1")) &&
        ((r.value? 4).any fun x => x.parents == [] && tc.body[x.producer]?.any fun ins =>
          ins.opcode.name == "call" && ins.method?.any (·.fullName == "T::F")))
    (by simp [explore, Adjacency.has, Adjacency.fresh]) (by decide +kernel)
  simp only [Bool.and_eq_true, Option.any_eq_true, Option.isSome_iff_exists, beq_iff_eq,
    toOption_eq_some] at h
  obtain ⟨⟨⟨⟨t, ht⟩, hsites⟩, hpaths⟩, r, hr, ⟨⟨⟨v, hv, hhead⟩, v', hv', hhead'⟩, x, hx, hparents,
    producer, hproducer, hname⟩, y, hy, hparents', ins, hins, hcall, callee, hcallee, hfull⟩ := h
  have hbody := Assembly.wellFormed_of_ofDocument ha hm
  obtain ⟨findings, hcheck, hreported⟩ := exists_mem_computedExpected hbody htc ht
  have hconstant : ¬ ComputedFirstOn tc.method 3 (List.range 8) := by
    have hproducer : tc.method.body[x.producer]? = some producer := hproducer
    rw [computedFirstOn_iff hr hv hhead, isComputed_iff hx, hparents, hproducer]
    simp [hname]
  have hcomputed : ComputedFirstOn tc.method 6 (List.range 8) :=
    (computedFirstOn_iff hr hv' hhead').2 ((isComputed_iff hy).2 (Or.inl ⟨ins, hins, Or.inl hcall⟩))
  obtain ⟨-, horigin, hfound⟩ :=
    exists_computedByFirstOn_of_computedExpected hbody htc (show tc.check 1 _ = _ from hcheck)
  obtain ⟨ins', hins', hassertion, hexpects⟩ :=
    mem_expectationSites.1 (show 6 ∈ tc.expectationSites by rw [hsites]; simp)
  obtain ⟨f, hf, hposition⟩ := hfound 6 ins' hins' hassertion hexpects
    ⟨List.range 8, by rw [hpaths]; simp, hcomputed⟩
  refine ⟨a, _, tc, findings, ha, hm, htc, hsites, hcheck, ⟨f, hf, hposition, ?_⟩, ?_⟩
  · obtain ⟨-, name, hmessage, path, hpath, -, r', hr', w, hw, id, hid, hby⟩ := horigin f hf
    obtain rfl : path = List.range 8 := by simpa [hpaths] using hpath
    cases hr.symm.trans hr'
    rw [hposition, hv'] at hw
    cases hw
    cases hhead'.symm.trans hid
    rw [hmessage, ← hby.fullName_eq hy hparents' hins hcallee, hfull]
    rfl
  · rintro ⟨f, hf, hposition⟩
    obtain ⟨-, path, hpath, hfirst⟩ := (hreported 3).1 ⟨f, hf, hposition⟩
    obtain rfl : path = List.range 8 := by simpa [hpaths] using hpath
    exact hconstant hfirst

end TestCase

end SmellCheck
