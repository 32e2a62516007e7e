import SmellCheck.Proofs.Flow.Ancestry
import SmellCheck.Proofs.Testing.Asserting
/-!
# Computed expected values

The expected value of an assertion is the first argument of a visit to
it. It is computed if it is the result of a call, or was made from one,
through however many values. The rule on expected values walks back
through the value graph and finds exactly this
(`TestCase.isSome_computingCall?`).

What the rule walks back from is the first of all arguments that an
instruction consumed on a path, which is the first argument of its first
visit (`ValueGraph.head?_consumedAt`). So the rule is exact for the visit
that comes first on each path, and blind for the others: a loop that
computes its expected value on the second lap only is not reported
(`TestCase.exists_computedOn_of_computedExpected_eq_nil`).
-/

namespace SmellCheck

open Relation

namespace Replay

variable {m : Method} {r : Replay} {id k : ValueId}

/-! ## Values that are computed -/

/-- **The value is computed**: itself, or a value that it was made from
in any number of steps, is the result of a call. -/
def IsComputed (m : Method) (r : Replay) (id : ValueId) : Prop :=
  ∃ k x ins, ReflTransGen r.MadeFrom id k ∧ r.value? k = some x ∧
    m.body[x.producer]? = some ins ∧ (ins.opcode.name = "call" ∨ ins.opcode.name = "callvirt")

/-- A value is computed by what produced it, or one of its parents is. -/
theorem isComputed_iff {x : Value} (hx : r.value? id = some x) : IsComputed m r id ↔
    (∃ ins, m.body[x.producer]? = some ins ∧
      (ins.opcode.name = "call" ∨ ins.opcode.name = "callvirt")) ∨
        ∃ parent ∈ x.parents, IsComputed m r parent := by
  constructor
  · rintro ⟨k, y, ins, hmade, hy, hins⟩
    rcases ReflTransGen.cases_head hmade with rfl | ⟨parent, ⟨x', hx', hparent⟩, hmade⟩
    · rw [hx] at hy
      cases hy
      exact Or.inl ⟨ins, hins⟩
    · rw [hx] at hx'
      cases hx'
      exact Or.inr ⟨parent, hparent, k, y, ins, hmade, hy, hins⟩
  · rintro (⟨ins, hins⟩ | ⟨parent, hparent, k, y, ins, hmade, hy, hins⟩)
    · exact ⟨id, x, ins, .refl, hx, hins⟩
    · exact ⟨k, y, ins, .head ⟨x, hx, hparent⟩ hmade, hy, hins⟩

/-- The expected value of the visit is computed. -/
def Visit.ExpectsComputed (m : Method) (r : Replay) (v : Visit) : Prop :=
  ∃ id, (v.arguments m).head? = some id ∧ IsComputed m r id

/-- **On the path, some visit to the site expects a computed value.** -/
def ComputedOn (m : Method) (site : Nat) (path : List Nat) : Prop :=
  ∃ r, run m path = .ok r ∧
    ∃ v ∈ visits m {} path, v.position = site ∧ v.ExpectsComputed m r

/-- **On the path, the first visit to the site expects a computed
value.** -/
def ComputedFirstOn (m : Method) (site : Nat) (path : List Nat) : Prop :=
  ∃ r, run m path = .ok r ∧
    ∃ v, (visits m {} path).find? (·.position == site) = some v ∧ v.ExpectsComputed m r

variable {site : Nat} {path : List Nat}

/-- What the first visit expects decides. -/
theorem computedFirstOn_iff {v : Visit} (hr : run m path = .ok r)
    (hv : (visits m {} path).find? (·.position == site) = some v)
    (hid : (v.arguments m).head? = some id) : ComputedFirstOn m site path ↔ IsComputed m r id := by
  constructor
  · rintro ⟨r', hr', v', hv', id', hid', hcomputed⟩
    rw [hr] at hr'
    cases hr'
    rw [hv] at hv'
    cases hv'
    rw [hid] at hid'
    cases hid'
    exact hcomputed
  · intro hcomputed
    exact ⟨r, hr, v, hv, id, hid, hcomputed⟩

/-- **An execution that comes by the site once** has no visit but the
first. -/
theorem ComputedOn.computedFirstOn (h : ComputedOn m site path)
    (hpath : ControlFlow.IsExecution m path) (hcount : path.count site ≤ 1) :
    ComputedFirstOn m site path := by
  obtain ⟨r, hr, v, hv, rfl, hcomputed⟩ := h
  refine ⟨r, hr, v, ?_, hcomputed⟩
  obtain ⟨before, after, hvisits⟩ := List.append_of_mem hv
  have hpositions := map_position_visits (steps_of_run hr) hpath.exists_instruction
  rw [← hpositions, hvisits] at hcount
  have hbefore : v.position ∉ before.map (·.position) := by
    rw [← List.count_eq_zero]
    simp only [List.map_append, List.map_cons, List.count_append, List.count_cons_self] at hcount
    omega
  rw [hvisits, List.find?_append, List.find?_eq_none.2, Option.none_or]
  · simp
  · intro u hu hposition
    exact hbefore (List.mem_map.2 ⟨u, hu, eq_of_beq hposition⟩)

end Replay

namespace ValueGraph

open Replay

variable {m : Method} {r : Replay} {path : List Nat} {id k : ValueId} {p : Nat}

/-! ## The first argument -/

/-- How many arguments a visit has is up to its instruction and to how
many operands there are. -/
theorem length_arguments (m : Method) (v : Visit) : (v.arguments m).length =
    ((List.range (v.operands m).length).filter fun index => !isLeftOut v.ins index).length := by
  have hindices : (v.operands m).zipIdx.map (·.2) = List.range (v.operands m).length := by
    rw [List.zipIdx_map_snd, List.range_eq_range']
  rw [Visit.arguments, List.length_map, ← hindices, List.filter_map, List.length_map]
  rfl

/-- All visits to a position have as many arguments. -/
theorem length_arguments_eq {vs : List Visit} (h : Trace m {} vs r) {v w : Visit} (hv : v ∈ vs)
    (hw : w ∈ vs) (hposition : v.position = w.position) :
    (v.arguments m).length = (w.arguments m).length := by
  have hvisit : ∀ u ∈ vs, m.body[u.position]? = some u.ins ∧
      (u.operands m).length = popCount m u.ins := by
    intro u hu
    obtain ⟨before, after, rfl⟩ := List.append_of_mem hu
    obtain ⟨-, hins, r', hstep, -⟩ := h.split.2.of_cons
    exact ⟨hins, length_operands (step_isOk_iff.1 ⟨r', hstep⟩).2⟩
  obtain ⟨hins, hlength⟩ := hvisit v hv
  obtain ⟨hins', hlength'⟩ := hvisit w hw
  rw [hposition, hins', Option.some.injEq] at hins
  rw [length_arguments, length_arguments, hlength, hlength', hins]

/-- **The first value that an instruction consumed** on an execution of a
tracked method is the first argument of its first visit. -/
theorem head?_consumedAt (hm : m.body.WellFormed) (ht : ∃ t, ValueTracker.ofMethod m = .ok t)
    (hpath : ControlFlow.IsExecution m path) (hr : Replay.run m path = .ok r) :
    ((ofReplay path r).consumedAt p).head? =
      ((visits m {} path).find? (·.position == p)).bind fun v => (v.arguments m).head? := by
  have hsteps := steps_of_run hr
  have htrace : Trace m {} (visits m {} path) r := trace_of_steps hsteps
  have hpositions := map_position_visits hsteps hpath.exists_instruction
  obtain ⟨t, ht⟩ := ht
  obtain ⟨height, hlevel⟩ := ValueTracker.exists_leveled_of_ofMethod hm ht
  have hheight := htrace.length_stack hlevel (by rwa [hpositions])
  have harguments : (ofReplay path r).consumedAt p =
      ((visits m {} path).filter (·.position == p)).flatMap (Visit.arguments m) :=
    List.Pairwise.eq_of_mem_iff (pairwise_consumedAt _ p) (pairwise_arguments htrace hheight p)
      fun id => mem_consumedAt_iff_of_trace hm htrace hpositions
  rw [harguments, ← List.head?_filter]
  have hvisits : ∀ v ∈ (visits m {} path).filter (·.position == p),
      v ∈ visits m {} path ∧ v.position = p := fun v hv =>
    ⟨(List.mem_filter.1 hv).1, eq_of_beq (List.mem_filter.1 hv).2⟩
  cases hfilter : (visits m {} path).filter (·.position == p) with
  | nil => rfl
  | cons v vs =>
    rw [hfilter] at hvisits
    obtain ⟨hv, hvs⟩ := List.forall_mem_cons.1 hvisits
    rw [List.flatMap_cons, List.head?_append, List.head?_cons, Option.bind_some]
    cases hfirst : v.arguments m with
    | cons id ids => rfl
    | nil =>
      -- then no visit has an argument
      have hnone : vs.flatMap (Visit.arguments m) = [] := by
        refine List.flatMap_eq_nil_iff.2 fun w hw => List.eq_nil_of_length_eq_zero ?_
        rw [length_arguments_eq htrace (hvs w hw).1 hv.1 ((hvs w hw).2.trans hv.2.symm), hfirst]
        rfl
      rw [hnone]
      rfl

end ValueGraph

namespace TestCase

open Replay

variable {m : Method} {tc : TestCase} {body : Body} {vg : ValueGraph} {site : Nat}
variable {sites : List Nat} {found : List Finding}

/-! ## What the rule finds -/

/-- An instruction calls for a result by one of two opcodes. -/
theorem computing?_eq_some {ins : Instruction} {callee : Signature} (h : ins.WellFormed body) :
    computing? ins = some callee ↔
      (ins.opcode.name = "call" ∨ ins.opcode.name = "callvirt") ∧ ins.method? = some callee := by
  rw [← (Opcode.of_flow_call h.opcode_mem).1, computing?]
  split
  · rename_i htest
    simp only [Bool.and_eq_true, Bool.not_eq_true', beq_iff_eq] at htest
    simp [htest]
  · rename_i htest
    simp only [Bool.and_eq_true, Bool.not_eq_true', beq_iff_eq] at htest
    simp [htest]

theorem isSome_computing? {ins : Instruction} (h : ins.WellFormed body) :
    (computing? ins).isSome ↔ ins.opcode.name = "call" ∨ ins.opcode.name = "callvirt" := by
  simp only [Option.isSome_iff_exists, computing?_eq_some h, exists_and_left,
    and_iff_left_iff_imp]
  intro hname
  obtain ⟨hcall, hmethod⟩ := Opcode.of_flow_call h.opcode_mem
  exact Instruction.exists_method h.operand_admitted (hmethod (hcall.2 hname).1)

/-- **The rule finds what is computed**, walking back from a value. -/
theorem isSome_computingCall? {r : Replay} {id : ValueId} (hm : m.body.WellFormed)
    (hr : r.Grounded) (hid : r.Names id) (path : List Nat) :
    (computingCall? m.body (.ofReplay path r) id).isSome ↔ IsComputed m r id := by
  have hproducer : ∀ k : ValueId, (((ValueGraph.ofReplay path r).value? k).bind fun x =>
      m.body[x.producer]?.bind computing?).isSome ↔
        ∃ x ins, r.value? k = some x ∧ m.body[x.producer]? = some ins ∧
          (ins.opcode.name = "call" ∨ ins.opcode.name = "callvirt") := by
    intro k
    rw [ValueGraph.value?_ofReplay]
    simp only [Option.isSome_bind, Option.any_eq_true]
    refine exists_congr fun x => ?_
    rw [exists_and_left]
    refine and_congr_right fun _ => exists_congr fun ins => and_congr_right fun hins => ?_
    exact isSome_computing? (hm ins (List.mem_of_getElem? hins))
  rw [computingCall?, List.findSome?_isSome_iff]
  simp only [ValueGraph.mem_provenance hr hid, hproducer, IsComputed, exists_and_left]

/-- **One path** adds the sites at which it expects a computed value, if
they were not reported before. -/
theorem exists_mem_computedOn :
    (∃ f ∈ computedOn body sites found vg, f.position = site) ↔
      site ∈ sites ∧ (¬ ∃ f ∈ found, f.position = site) ∧
        (computedExpectation? body vg site).isSome := by
  simp only [computedOn, List.mem_filterMap, List.mem_filter, Option.map_eq_some_iff,
    Bool.not_eq_true', List.any_eq_false, beq_iff_eq, Option.isSome_iff_exists]
  constructor
  · rintro ⟨f, ⟨p, ⟨hp, hfound⟩, callee, hcallee, rfl⟩, rfl⟩
    refine ⟨hp, ?_, callee, hcallee⟩
    rintro ⟨g, hg, hposition⟩
    exact hfound g hg hposition
  · rintro ⟨hsite, hfound, callee, hcallee⟩
    exact ⟨_, ⟨site, ⟨hsite, fun g hg hposition => hfound ⟨g, hg, hposition⟩⟩, callee, hcallee,
      rfl⟩, rfl⟩

/-- **All paths** report a site exactly if one of them does. -/
theorem exists_mem_foldl_computedOn {graphs : List ValueGraph} :
    (∃ f ∈ graphs.foldl (fun found vg => found ++ computedOn body sites found vg) found,
      f.position = site) ↔
      (∃ f ∈ found, f.position = site) ∨
        site ∈ sites ∧ ∃ vg ∈ graphs, (computedExpectation? body vg site).isSome := by
  induction graphs generalizing found with
  | nil => simp
  | cons vg graphs ih =>
    rw [List.foldl_cons, ih]
    simp only [List.mem_append, or_and_right, exists_or, exists_mem_computedOn,
      List.exists_mem_cons_iff]
    by_cases hfound : ∃ f ∈ found, f.position = site
    · simp only [hfound, true_or]
    · simp only [hfound, not_false_eq_true, true_and, false_or, and_or_left]

theorem mem_expectationSites : site ∈ tc.expectationSites ↔
    ∃ ins, tc.body[site]? = some ins ∧ tc.isAssertionCall ins = true ∧
      tc.expectsFirst ins = true := by
  rw [expectationSites, List.mem_filter, assertionSites, mem_positionsOf, Option.any_eq_true]
  constructor
  · rintro ⟨⟨ins, hins, hcall⟩, ins', hins', hfirst⟩
    rw [hins] at hins'
    cases hins'
    exact ⟨ins, hins, hcall, hfirst⟩
  · rintro ⟨ins, hins, hcall, hfirst⟩
    exact ⟨⟨ins, hins, hcall⟩, ins, hins, hfirst⟩

/-- **A path reports a site if the first visit on it expects a computed
value.** -/
theorem isSome_computedExpectation? (hm : m.body.WellFormed)
    (ht : ∃ t, ValueTracker.ofMethod m = .ok t) {path : List Nat} {r : Replay}
    (hpath : ControlFlow.IsExecution m path) (hr : Replay.run m path = .ok r) :
    (computedExpectation? m.body (.ofReplay path r) site).isSome ↔
      ComputedFirstOn m site path := by
  have hhead : ∀ id, ((ValueGraph.ofReplay path r).consumedAt site).head? = some id ↔
      ∃ v, (visits m {} path).find? (·.position == site) = some v ∧
        (v.arguments m).head? = some id := by
    intro id
    rw [ValueGraph.head?_consumedAt hm ht hpath hr, Option.bind_eq_some_iff]
  have hcomputed : ∀ id, ((ValueGraph.ofReplay path r).consumedAt site).head? = some id →
      ((computingCall? m.body (.ofReplay path r) id).isSome ↔ IsComputed m r id) := by
    intro id hid
    obtain ⟨-, hvalue⟩ := ValueGraph.mem_consumedAt.1 (List.mem_of_head? hid)
    obtain ⟨x, hx, -⟩ := (Option.any_eq_true _ _).1 hvalue
    exact isSome_computingCall? hm (grounded_of_run hr) (names_iff.2 ⟨x, hx⟩) path
  rw [computedExpectation?, Option.isSome_bind, Option.any_eq_true]
  constructor
  · rintro ⟨id, hid, hcall⟩
    obtain ⟨v, hv, hfirst⟩ := (hhead id).1 hid
    exact ⟨r, hr, v, hv, id, hfirst, (hcomputed id hid).1 hcall⟩
  · rintro ⟨r', hr', v, hv, id, hfirst, hcall⟩
    rw [hr] at hr'
    cases hr'
    have hid := (hhead id).2 ⟨v, hv, hfirst⟩
    exact ⟨id, hid, (hcomputed id hid).2 hcall⟩

/-- **The sites that the rule reports**, where there is a tracker. -/
theorem exists_mem_computedExpected {a : Assembly} {registry : Registry} {t : ValueTracker}
    (hm : m.body.WellFormed) (htc : ofMethod a registry m = .ok tc) (ht : tc.tracker = .ok t) :
    ∃ findings, tc.computedExpected = .ok findings ∧
      ∀ site, (∃ f ∈ findings, f.position = site) ↔
        site ∈ tc.expectationSites ∧ ∃ path ∈ tc.paths, ComputedFirstOn m site path := by
  obtain ⟨c, hc, rfl⟩ := map_eq_ok.1 htc
  obtain rfl := ControlFlow.method_of_ofMethod hc
  have htracker : ValueTracker.ofMethod c.method = .ok t := bind_eq_ok.2 ⟨c, hc, ht⟩
  obtain ⟨graphs, hgraphs, rfl⟩ := map_eq_ok.1 ht
  have hpath : ∀ site path r, path ∈ c.paths → Replay.run c.method path = .ok r →
      ((computedExpectation? c.method.body (.ofReplay path r) site).isSome ↔
        ComputedFirstOn c.method site path) := fun site path r hpath hr =>
    isSome_computedExpectation? hm ⟨_, htracker⟩ ((ControlFlow.mem_paths_iff hm hc).1 hpath).1 hr
  by_cases hsites : (TestCase.mk a registry c).expectationSites.isEmpty = true
  · refine ⟨[], by rw [computedExpected, if_pos hsites], fun site => ?_⟩
    simp [List.isEmpty_iff.1 hsites]
  · refine ⟨_, by rw [computedExpected, if_neg hsites, ht]; rfl, fun site => ?_⟩
    rw [exists_mem_foldl_computedOn]
    simp only [List.not_mem_nil, false_and, exists_false, false_or]
    refine and_congr_right fun _ => ⟨?_, ?_⟩
    · rintro ⟨vg, hvg, hsome⟩
      obtain ⟨path, hmem, r, hr, rfl⟩ := ValueTracker.exists_run_of_replayPaths hgraphs hvg
      exact ⟨path, hmem, (hpath site path r hmem hr).1 hsome⟩
    · rintro ⟨path, hmem, hfirst⟩
      obtain ⟨vg, hvg, r, hr, rfl⟩ := ValueTracker.exists_run_of_mem_paths hgraphs hmem
      exact ⟨_, hvg, (hpath site path r hmem hr).2 hfirst⟩

/-- **The rule on expected values is exact for first visits.** Where the
test has a tracker, a site is reported if and only if on some enumerated
path its first visit expects a computed value. So nothing is missed at a
site exactly if some path computes the expected value of a first visit
whenever one computes that of any visit; in particular nothing is missed
where every path comes by once at most. -/
theorem computedExpected_iff_computedFirstOn {a : Assembly} {registry : Registry}
    {t : ValueTracker} (hm : m.body.WellFormed) (htc : ofMethod a registry m = .ok tc)
    (ht : tc.tracker = .ok t) (limit : Nat) :
    ∃ findings, tc.check limit .computedExpected = .ok findings ∧
      ∀ site ins, m.body[site]? = some ins → tc.isAssertionCall ins = true →
        tc.expectsFirst ins = true →
        ((∃ f ∈ findings, f.position = site) ↔
          ∃ path ∈ tc.paths, ComputedFirstOn m site path) ∧
        ((∀ path ∈ tc.paths, ComputedOn m site path → ∃ f ∈ findings, f.position = site) ↔
          ((∃ path ∈ tc.paths, ComputedOn m site path) →
            ∃ path ∈ tc.paths, ComputedFirstOn m site path)) ∧
        ((∀ path ∈ tc.paths, path.count site ≤ 1) → ∀ path ∈ tc.paths,
          ComputedOn m site path → ∃ f ∈ findings, f.position = site) := by
  obtain ⟨findings, hfindings, hreported⟩ := exists_mem_computedExpected hm htc ht
  refine ⟨findings, hfindings, fun site ins hins hcall hfirst => ?_⟩
  obtain ⟨c, hc, rfl⟩ := map_eq_ok.1 htc
  obtain rfl := ControlFlow.method_of_ofMethod hc
  have hsite : (∃ f ∈ findings, f.position = site) ↔
      ∃ path ∈ c.paths, ComputedFirstOn c.method site path := by
    rw [hreported]
    exact and_iff_right (mem_expectationSites.2 ⟨ins, hins, hcall, hfirst⟩)
  refine ⟨hsite, ?_, fun hcount path hpath hcomputed => hsite.2 ⟨path, hpath, ?_⟩⟩
  · rw [hsite]
    constructor
    · rintro hall ⟨path, hpath, hcomputed⟩
      exact hall path hpath hcomputed
    · intro hall path hpath hcomputed
      exact hall ⟨path, hpath, hcomputed⟩
  · exact hcomputed.computedFirstOn ((ControlFlow.mem_paths_iff hm hc).1 hpath).1
      (hcount path hpath)

/-- A loop that compares what a slot holds, at first the result of a call
and then a constant. -/
def firstLapListing : ListingDocument :=
  Assembly.testDocument 1 [("void T::M()",
    "call int32 T::F()\nstloc.0\nldloc.0\nldc.i4.1\n" ++
      "call void Xunit.Assert::Equal(int32, int32)\nldc.i4.2\nstloc.0\nldc.i4.0\n" ++
      "brtrue IL_0002\nret")]

/-- The first visit expects the result of the call, through the slot. -/
theorem computedExpected_iff_computedFirstOn_firstLapListing :
    ∃ a m tc t path findings, Assembly.ofDocument firstLapListing = .ok a ∧ m ∈ a.methods ∧
      ofMethod a Registry.builtin m = .ok tc ∧ tc.tracker = .ok t ∧ path ∈ tc.paths ∧
      path.count 4 = 2 ∧ ComputedFirstOn m 4 path ∧
      tc.check 1 .computedExpected = .ok findings ∧ ∃ f ∈ findings, f.position = 4 := by
  obtain ⟨a, tc, ha, hm, htc, h⟩ := exists_of_any firstLapListing .builtin
    [[1], [2], [3], [4], [5], [6], [7], [8], [9, 2], []]
    [(0, [1]), (1, [2]), (2, [3]), (3, [4]), (4, [5]), (5, [6]), (6, [7]), (7, [8]),
      (8, [9, 2]), (9, [])]
    (fun tc => tc.tracker.toOption.isSome && (tc.body[4]?.any fun ins =>
        tc.isAssertionCall ins && tc.expectsFirst ins) &&
      tc.paths.any fun path => path.count 4 == 2 && (run tc.method path).toOption.any fun r =>
        (((visits tc.method {} path).find? (·.position == 4)).any
          fun v => (v.arguments tc.method).head? == some 2) &&
        ((r.value? 2).any fun x => x.parents == [1]) &&
        ((r.value? 1).any fun x => tc.body[x.producer]?.any (·.opcode.name == "call")))
    (by simp [explore, Adjacency.has, Adjacency.fresh]) (by decide +kernel)
  simp only [Bool.and_eq_true, List.any_eq_true, Option.any_eq_true, Option.isSome_iff_exists,
    beq_iff_eq, toOption_eq_some] at h
  obtain ⟨⟨⟨t, ht⟩, ins, hins, hassertion, hfirst⟩, path, hpath, hcount, r, hr, h⟩ := h
  -- what the slot gave was made from value one, which the call produced
  obtain ⟨⟨⟨v, hv, hhead⟩, x, hx, hparents⟩, y, hy, producer, hproducer, hname⟩ := h
  have hcall : IsComputed tc.method r 1 :=
    (isComputed_iff hy).2 (Or.inl ⟨producer, hproducer, Or.inl hname⟩)
  have hcomputed : ComputedFirstOn tc.method 4 path := (computedFirstOn_iff hr hv hhead).2
    ((isComputed_iff hx).2 (Or.inr ⟨1, by simp [hparents], hcall⟩))
  obtain ⟨findings, hcheck, hreported⟩ :=
    computedExpected_iff_computedFirstOn (Assembly.wellFormed_of_ofDocument ha hm) htc ht 1
  exact ⟨a, _, tc, t, path, findings, ha, hm, htc, ht, hpath, hcount, hcomputed, hcheck,
    (hreported 4 ins hins hassertion hfirst).1.2 ⟨path, hpath, hcomputed⟩⟩

/-! ## Later visits -/

/-- A loop that compares a constant on its first lap, and what a call
gave on the laps behind it. -/
def secondLapListing : ListingDocument :=
  Assembly.testDocument 0 [("void T::M()",
    "ldc.i4.1\nldc.i4.1\ncall void Xunit.Assert::Equal(int32, int32)\n" ++
      "call int32 T::F()\nldc.i4.0\nbrtrue IL_0001\npop\nret")]

/-- **A later visit is not seen.** The second visit expects what the call
gave on the first lap; no finding is reported. -/
theorem exists_computedOn_of_computedExpected_eq_nil :
    ∃ a m tc t path, Assembly.ofDocument secondLapListing = .ok a ∧ m ∈ a.methods ∧
      ofMethod a Registry.builtin m = .ok tc ∧ tc.tracker = .ok t ∧
      (∃ ins, m.body[2]? = some ins ∧ tc.isAssertionCall ins = true ∧
        tc.expectsFirst ins = true) ∧
      path ∈ tc.paths ∧ ComputedOn m 2 path ∧ tc.check 1 .computedExpected = .ok [] := by
  obtain ⟨a, tc, ha, hm, htc, h⟩ := exists_of_any secondLapListing .builtin
    [[1], [2], [3], [4], [5], [6, 1], [7], []]
    [(0, [1]), (1, [2]), (2, [3]), (3, [4]), (4, [5]), (5, [6, 1]), (6, [7]), (7, [])]
    (fun tc => tc.tracker.toOption.isSome && tc.expectationSites == [2] &&
      (tc.paths.all fun path => (run tc.method path).toOption.any fun r =>
        (((visits tc.method {} path).find? (·.position == 2)).any
          fun v => (v.arguments tc.method).head? == some 1) &&
        ((r.value? 1).any fun x => x.parents == [] &&
          tc.body[x.producer]?.any (·.opcode.name == "ldc.i4.1"))) &&
      tc.paths.any fun path => (run tc.method path).toOption.any fun r =>
        (visits tc.method {} path).any fun v => v.position == 2 &&
          (v.arguments tc.method).head? == some 3 &&
          (r.value? 3).any fun x => tc.body[x.producer]?.any (·.opcode.name == "call"))
    (by simp [explore, Adjacency.has, Adjacency.fresh]) (by decide +kernel)
  simp only [Bool.and_eq_true, List.any_eq_true, List.all_eq_true, Option.any_eq_true,
    Option.isSome_iff_exists, beq_iff_eq, toOption_eq_some] at h
  obtain ⟨⟨⟨⟨t, ht⟩, hsites⟩, hall⟩, path, hpath, r, hr, v, hv, ⟨hposition, hhead⟩, x, hx,
    producer, hproducer, hname⟩ := h
  have hcomputed : ComputedOn tc.method 2 path := ⟨r, hr, v, hv, hposition, 3, hhead,
    (isComputed_iff hx).2 (Or.inl ⟨producer, hproducer, Or.inl hname⟩)⟩
  -- on every path the first visit expects value one, a constant
  have hnone : ∀ path ∈ tc.paths, ¬ ComputedFirstOn tc.method 2 path := by
    intro path hpath
    obtain ⟨r, hr, ⟨v, hv, hid⟩, x, hx, hparents, producer, hproducer, hname⟩ := hall path hpath
    have hproducer : tc.method.body[x.producer]? = some producer := hproducer
    rw [computedFirstOn_iff hr hv hid, isComputed_iff hx, hparents, hproducer]
    simp [hname]
  obtain ⟨findings, hcheck, hreported⟩ :=
    exists_mem_computedExpected (Assembly.wellFormed_of_ofDocument ha hm) htc ht
  obtain rfl : findings = [] := by
    refine List.eq_nil_iff_forall_not_mem.2 fun f hf => ?_
    obtain ⟨hsite, path, hpath, hfirst⟩ := (hreported f.position).1 ⟨f, hf, rfl⟩
    rw [hsites, List.mem_singleton] at hsite
    exact hnone path hpath (hsite ▸ hfirst)
  exact ⟨a, _, tc, t, path, ha, hm, htc, ht, mem_expectationSites.1 (by rw [hsites]; simp), hpath,
    hcomputed, hcheck⟩

end TestCase

end SmellCheck
