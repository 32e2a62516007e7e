import SmellCheck.Flow.Provenance
import SmellCheck.Proofs.Assembly.Load
import SmellCheck.Proofs.Flow.Control
import SmellCheck.Proofs.Flow.Step
import Mathlib.Data.List.Induction
/-!
# The height of the operand stack

A tracker replays the executions that meet no position more than twice.
That is enough for all executions, however often they go round a loop:
once the paths of the tracker are replayed, each position has one height
of the stack, which is the same on every way to it (`HasHeight`), and
heights that fit together at every step (`Leveled`) let every execution
be replayed (`Leveled.exists_steps`, `Leveled.exists_run`).

A way to a position without a lap and a way from it without a lap make up
a path of the tracker. Two ways to a position can therefore be followed
by one and the same way to a return, behind which the stack is empty; and
the height behind some steps determines the height before them.
-/

namespace SmellCheck

namespace Replay

open ControlFlow

variable {m : Method} {ins : Instruction} {r r' s s' : Replay} {position : Nat}

/-! ## Steps and the height -/

/-- The height behind an instruction. -/
def heightBehind (m : Method) (ins : Instruction) (height : Nat) : Nat :=
  height - popCount m ins + pushCount ins

theorem length_step_stack (h : step m position ins r = .ok r') :
    r'.stack.length = heightBehind m ins r.stack.length := by
  rw [step_stack h, List.length_append, List.length_reverse, List.length_range', List.length_drop,
    heightBehind, Nat.add_comm]

/-- **The height behind some steps determines the height before them.** -/
theorem length_stack_eq_of_steps {v : List Nat} (h : steps m r v = .ok s)
    (h' : steps m r' v = .ok s') (hs : s.stack.length = s'.stack.length) :
    r.stack.length = r'.stack.length := by
  induction v generalizing r r' with
  | nil =>
    cases h
    cases h'
    exact hs
  | cons p v ih =>
    cases hins : m.body[p]? with
    | none =>
      simp only [steps, hins] at h h'
      exact ih h h'
    | some ins =>
      obtain ⟨r₁, hstep, h⟩ := (steps_cons_eq_ok hins).1 h
      obtain ⟨r₁', hstep', h'⟩ := (steps_cons_eq_ok hins).1 h'
      have hlength := ih h h'
      rw [length_step_stack hstep, length_step_stack hstep'] at hlength
      have hpops := (step_isOk_iff.1 ⟨r₁, hstep⟩).2
      have hpops' := (step_isOk_iff.1 ⟨r₁', hstep'⟩).2
      unfold heightBehind at hlength
      omega

/-! ## Heights that fit together -/

/-- **Heights that fit together on all executions**: there is room for the
slots, the stack starts empty, each instruction finds its operands and
leaves the height of the next position, and a return leaves nothing. -/
structure Leveled (m : Method) (height : Nat → Nat) : Prop where
  room : ∀ {w}, IsExecution m w → hasRoom m = true
  entry : ∀ {v}, IsExecution m (0 :: v) → height 0 = 0
  ready : ∀ {u p v ins}, IsExecution m (u ++ p :: v) → m.body[p]? = some ins →
    Admissible m ins ∧ popCount m ins ≤ height p
  step : ∀ {u p q v ins}, IsExecution m (u ++ p :: q :: v) → m.body[p]? = some ins →
    height q = heightBehind m ins (height p)
  exit : ∀ {u p ins}, IsExecution m (u ++ [p]) → m.body[p]? = some ins →
    heightBehind m ins (height p) = 0

/-- One step of an execution between fitting heights. -/
theorem Leveled.exists_step {height : Nat → Nat} (hm : Leveled m height) {u v : List Nat} {p : Nat}
    (hw : IsExecution m (u ++ p :: v)) (hins : m.body[p]? = some ins)
    (hr : r.stack.length = height p) :
    ∃ r', Replay.step m p ins r = .ok r' ∧ r'.stack.length = heightBehind m ins (height p) := by
  obtain ⟨hadmissible, hpops⟩ := hm.ready hw hins
  obtain ⟨r', hstep⟩ := step_isOk_iff.2 ⟨hadmissible, hr ▸ hpops⟩
  exact ⟨r', hstep, hr ▸ length_step_stack hstep⟩

/-- **Every execution is replayed up to each of its positions**, where the
stack has the height of the position. -/
theorem Leveled.exists_steps {height : Nat → Nat} (hm : Leveled m height) {u v : List Nat} {p : Nat}
    (hw : IsExecution m (u ++ p :: v)) :
    ∃ r, steps m {} u = .ok r ∧ r.stack.length = height p := by
  induction u using List.reverseRecOn generalizing p v with
  | nil =>
    obtain rfl : 0 = p := hw.choose_spec.1.eq_of_cons
    exact ⟨{}, rfl, (hm.entry hw).symm⟩
  | append_singleton u q ih =>
    rw [List.append_assoc, List.singleton_append] at hw
    obtain ⟨r, hsteps, hr⟩ := ih hw
    obtain ⟨ins, hins⟩ := hw.exists_instruction q (by simp)
    obtain ⟨r', hstep, hr'⟩ := hm.exists_step hw hins hr
    refine ⟨r', steps_append_eq_ok.2 ⟨r, hsteps, ?_⟩, hr'.trans (hm.step hw hins).symm⟩
    exact (steps_cons_eq_ok hins).2 ⟨r', hstep, rfl⟩

/-- Every execution is replayed to its end. -/
theorem Leveled.exists_run {height : Nat → Nat} (hm : Leveled m height) {w : List Nat}
    (hw : IsExecution m w) : ∃ r, run m w = .ok r := by
  obtain ⟨last, hwalk, -⟩ := id hw
  obtain ⟨u, rfl⟩ := List.getLast?_eq_some_iff.1 hwalk.getLast?
  obtain ⟨r, hsteps, hr⟩ := hm.exists_steps hw
  obtain ⟨ins, hins⟩ := hw.exists_instruction last (by simp)
  obtain ⟨r', hstep, hr'⟩ := hm.exists_step hw hins hr
  rw [hm.exit hw hins] at hr'
  have hlast : steps m r [last] = .ok r' := (steps_cons_eq_ok hins).2 ⟨r', hstep, rfl⟩
  exact ⟨r', run_eq_ok.2 ⟨hm.room hw, steps_append_eq_ok.2 ⟨r, hsteps, hlast⟩,
    List.eq_nil_of_length_eq_zero hr'⟩⟩

/-! ## The heights that the paths give -/

/-- Every way to the position without a lap before it is replayed and
leaves the given height. -/
def HasHeight (m : Method) (p height : Nat) : Prop :=
  ∀ u : List Nat, Walk (Leads m) 0 p (u ++ [p]) → u.Nodup →
    ∃ r, steps m {} u = .ok r ∧ r.stack.length = height

section Paths

variable {c : ControlFlow} (hm : m.body.WellFormed) (hc : ControlFlow.ofMethod m = .ok c)
variable (hpaths : ∀ w ∈ c.paths, ∃ r, run m w = .ok r)

include hm hc hpaths

/-- A way to a position and a way from it, both without a lap, are
replayed one after the other. -/
theorem exists_steps_of_paths {p last : Nat} {u v : List Nat} (hu : Walk (Leads m) 0 p (u ++ [p]))
    (hunodup : u.Nodup) (hv : Walk (Leads m) p last v) (hvnodup : v.Nodup)
    (hreturn : isReturn m last = true) :
    ∃ r s, steps m {} u = .ok r ∧ steps m r v = .ok s ∧ s.stack = [] := by
  obtain ⟨s, hrun⟩ := hpaths _ (append_mem_paths hm hc hu hunodup hv hvnodup hreturn)
  obtain ⟨-, hsteps, hempty⟩ := run_eq_ok.1 hrun
  obtain ⟨r, hr, hs⟩ := steps_append_eq_ok.1 hsteps
  exact ⟨r, s, hr, hs, hempty⟩

/-- Where there is an execution there is one of the paths, which is
replayed, so there is room for the slots. -/
theorem hasRoom_of_paths {w : List Nat} (hw : IsExecution m w) : hasRoom m = true := by
  obtain ⟨last, hwalk, hreturn⟩ := hw
  obtain ⟨v, hv, hvnodup, -⟩ := hwalk.exists_nodup
  have hmem := append_mem_paths hm hc (.single 0) List.nodup_nil hv hvnodup hreturn
  obtain ⟨r, hrun⟩ := hpaths _ hmem
  exact (run_eq_ok.1 hrun).1

/-- **Each position of an execution has a height.** -/
theorem exists_hasHeight {u v : List Nat} {p : Nat} (hw : IsExecution m (u ++ p :: v)) :
    ∃ height, HasHeight m p height := by
  obtain ⟨last, hwalk, hreturn⟩ := hw
  obtain ⟨hto, hfrom⟩ := hwalk.split
  obtain ⟨v, hv, hvnodup, -⟩ := hfrom.exists_nodup
  obtain ⟨u₀, hu₀, hu₀nodup⟩ := hto.exists_nodup_before
  obtain ⟨r₀, s₀, -, hs₀, hempty₀⟩ := exists_steps_of_paths hm hc hpaths hu₀
    (List.nodup_append.1 hu₀nodup).1 hv hvnodup hreturn
  -- the same way on follows every way to `p`, and leaves the stack empty behind all of them
  refine ⟨r₀.stack.length, fun u hu hunodup => ?_⟩
  obtain ⟨r, s, hr, hs, hempty⟩ := exists_steps_of_paths hm hc hpaths hu hunodup hv hvnodup hreturn
  exact ⟨r, hr, length_stack_eq_of_steps hs hs₀ (by rw [hempty, hempty₀])⟩

/-- A way from a position without a lap is replayed from its height. -/
theorem exists_steps_of_hasHeight {u t v : List Nat} {p last height : Nat}
    (hw : IsExecution m (u ++ p :: t)) (hp : HasHeight m p height) (hv : Walk (Leads m) p last v)
    (hvnodup : v.Nodup) (hreturn : isReturn m last = true) :
    ∃ r s, r.stack.length = height ∧ steps m r v = .ok s ∧ s.stack = [] := by
  obtain ⟨_, hwalk, -⟩ := hw
  obtain ⟨u₀, hu₀, hu₀nodup⟩ := hwalk.split.1.exists_nodup_before
  have hu₀nodup := (List.nodup_append.1 hu₀nodup).1
  obtain ⟨r, s, hr, hs, hempty⟩ :=
    exists_steps_of_paths hm hc hpaths hu₀ hu₀nodup hv hvnodup hreturn
  obtain ⟨r₀, hr₀, hheight⟩ := hp u₀ hu₀ hu₀nodup
  rw [hr] at hr₀
  cases hr₀
  exact ⟨r, s, hheight, hs, hempty⟩

/-- An instruction finds its operands at the height of its position. -/
theorem admissible_of_hasHeight {u v : List Nat} {p height : Nat}
    (hw : IsExecution m (u ++ p :: v)) (hp : HasHeight m p height)
    (hins : m.body[p]? = some ins) : Admissible m ins ∧ popCount m ins ≤ height := by
  obtain ⟨last, hwalk, hreturn⟩ := id hw
  obtain ⟨v, hv, hvnodup, -⟩ := hwalk.split.2.exists_nodup
  obtain ⟨r, s, rfl, hs, -⟩ := exists_steps_of_hasHeight hm hc hpaths hw hp hv hvnodup hreturn
  obtain ⟨v, rfl⟩ := hv.exists_eq_cons
  obtain ⟨r₁, hstep, -⟩ := (steps_cons_eq_ok hins).1 hs
  exact step_isOk_iff.1 ⟨r₁, hstep⟩

/-- A return leaves nothing from the height of its position. -/
theorem heightBehind_eq_zero_of_hasHeight {u : List Nat} {p height : Nat}
    (hw : IsExecution m (u ++ [p])) (hp : HasHeight m p height) (hins : m.body[p]? = some ins) :
    heightBehind m ins height = 0 := by
  obtain ⟨last, hwalk, hreturn⟩ := id hw
  obtain rfl : p = last := by simpa using hwalk.getLast?
  obtain ⟨r, s, rfl, hs, hempty⟩ := exists_steps_of_hasHeight hm hc hpaths hw hp (.single p)
    (List.nodup_singleton p) hreturn
  obtain ⟨r₁, hstep, hnil⟩ := (steps_cons_eq_ok hins).1 hs
  cases hnil
  rw [← length_step_stack hstep, hempty, List.length_nil]

end Paths

/-- Heights at both ends of a step fit together. -/
theorem heightBehind_of_hasHeight {u v : List Nat} {p q height height' : Nat}
    (hw : IsExecution m (u ++ p :: q :: v)) (hp : HasHeight m p height)
    (hq : HasHeight m q height') (hins : m.body[p]? = some ins) :
    height' = heightBehind m ins height := by
  obtain ⟨last, hwalk, -⟩ := hw
  obtain ⟨u₀, hu₀, hu₀nodup⟩ := hwalk.split.1.exists_nodup_before
  -- the way to `p` without a lap goes on to `q` and has no lap before it
  obtain ⟨r', hr', rfl⟩ := hq (u₀ ++ [p]) (hu₀.append hwalk.rel_of_append (.single q)) hu₀nodup
  obtain ⟨r, hr, rfl⟩ := hp u₀ hu₀ (List.nodup_append.1 hu₀nodup).1
  obtain ⟨r₀, hr₀, hstep⟩ := steps_append_eq_ok.1 hr'
  rw [hr] at hr₀
  cases hr₀
  obtain ⟨r₁, hstep, hnil⟩ := (steps_cons_eq_ok hins).1 hstep
  cases hnil
  exact length_step_stack hstep

/-- **Once the paths are replayed, the heights fit together.** -/
theorem exists_leveled {c : ControlFlow} (hm : m.body.WellFormed)
    (hc : ControlFlow.ofMethod m = .ok c) (hpaths : ∀ w ∈ c.paths, ∃ r, run m w = .ok r) :
    ∃ height, Leveled m height := by
  have hexists : ∀ p, ∃ height, ∀ u v, IsExecution m (u ++ p :: v) → HasHeight m p height := by
    intro p
    by_cases hp : ∃ u v, IsExecution m (u ++ p :: v)
    · obtain ⟨u, v, hw⟩ := hp
      obtain ⟨height, hheight⟩ := exists_hasHeight hm hc hpaths hw
      exact ⟨height, fun _ _ _ => hheight⟩
    · -- no execution meets the position, so any height will do
      exact ⟨0, fun u v hw => absurd ⟨u, v, hw⟩ hp⟩
  choose height hheight using hexists
  refine ⟨height, ⟨hasRoom_of_paths hm hc hpaths, ?_, ?_, ?_, ?_⟩⟩
  · intro v hw
    obtain ⟨r, hr, hlength⟩ := hheight 0 [] v hw [] (.single 0) List.nodup_nil
    cases hr
    exact hlength.symm
  · intro u p v ins hw hins
    exact admissible_of_hasHeight hm hc hpaths hw (hheight p u v hw) hins
  · intro u p q v ins hw hins
    refine heightBehind_of_hasHeight hw (hheight p u (q :: v) hw) (hheight q (u ++ [p]) v ?_) hins
    rwa [List.append_assoc]
  · intro u p ins hw hins
    exact heightBehind_eq_zero_of_hasHeight hm hc hpaths hw (hheight p u [] hw) hins

end Replay

namespace ValueTracker

variable {m : Method} {c : ControlFlow}

/-! ## Trackers -/

/-- The value graphs are those of the paths, in order. -/
theorem forall₂_of_replayPaths {number : Nat} {paths : List (List Nat)}
    {graphs : List ValueGraph} (h : replayPaths m number paths = .ok graphs) :
    List.Forall₂ (fun w vg => ∃ r, Replay.run m w = .ok r ∧ vg = .ofReplay w r) paths graphs := by
  induction paths generalizing number graphs with
  | nil =>
    cases h
    exact .nil
  | cons w paths ih =>
    rw [replayPaths] at h
    split at h
    · cases h
    · rename_i r hr
      obtain ⟨rest, hrest, rfl⟩ := map_eq_ok.1 h
      exact .cons ⟨r, hr, rfl⟩ (ih hrest)

/-- A value graph comes from the replay of a path. -/
theorem exists_run_of_replayPaths {number : Nat} {paths : List (List Nat)}
    {graphs : List ValueGraph} (h : replayPaths m number paths = .ok graphs) {vg : ValueGraph}
    (hvg : vg ∈ graphs) : ∃ w ∈ paths, ∃ r, Replay.run m w = .ok r ∧ vg = .ofReplay w r :=
  exists_mem_of_forall₂ (forall₂_of_replayPaths h) hvg

/-- And each path is replayed to a value graph. -/
theorem exists_run_of_mem_paths {number : Nat} {paths : List (List Nat)}
    {graphs : List ValueGraph} (h : replayPaths m number paths = .ok graphs) {w : List Nat}
    (hw : w ∈ paths) : ∃ vg ∈ graphs, ∃ r, Replay.run m w = .ok r ∧ vg = .ofReplay w r :=
  exists_mem_of_forall₂ (forall₂_of_replayPaths h).flip hw

theorem replayPaths_isOk_iff (number : Nat) {paths : List (List Nat)} :
    (∃ graphs, replayPaths m number paths = .ok graphs) ↔
      ∀ w ∈ paths, ∃ r, Replay.run m w = .ok r := by
  induction paths generalizing number with
  | nil => simp [replayPaths]
  | cons w paths ih =>
    rw [List.forall_mem_cons, ← ih (number + 1), replayPaths]
    cases hr : Replay.run m w with
    | error fault => simp
    | ok r => simp [map_eq_ok]

/-- **There is a tracker when every path of the control-flow graph is
replayed.** -/
theorem isOk_iff_forall_paths (hm : m.body.WellFormed) (hc : ControlFlow.ofMethod m = .ok c) :
    (∃ t, ofMethod m = .ok t) ↔ ∀ w ∈ c.paths, ∃ r, Replay.run m w = .ok r := by
  obtain ⟨hmethod, -, -⟩ := ControlFlow.complete_of_ofMethod hm hc
  rw [← replayPaths_isOk_iff 0]
  simp only [ofMethod, hc, Except.bind, ofControl, hmethod, map_eq_ok]
  constructor
  · rintro ⟨t, graphs, hgraphs, -⟩
    exact ⟨graphs, hgraphs⟩
  · rintro ⟨graphs, hgraphs⟩
    exact ⟨_, graphs, hgraphs, rfl⟩

/-- Where there is a tracker, there is a height for every position. -/
theorem exists_leveled_of_ofMethod (hm : m.body.WellFormed) {t : ValueTracker}
    (ht : ofMethod m = .ok t) : ∃ height, Replay.Leveled m height := by
  obtain ⟨c, hc, -⟩ := bind_eq_ok.1 ht
  exact Replay.exists_leveled hm hc ((isOk_iff_forall_paths hm hc).1 ⟨t, ht⟩)

/-- A value graph of a tracker belongs to an execution that is replayed. -/
theorem exists_run_of_mem_graphs (hm : m.body.WellFormed) {t : ValueTracker}
    (ht : ofMethod m = .ok t) {vg : ValueGraph} (hvg : vg ∈ t.graphs) :
    ∃ path r, vg = .ofReplay path r ∧ ControlFlow.IsExecution m path ∧
      Replay.run m path = .ok r := by
  obtain ⟨c, hc, hcontrol⟩ := bind_eq_ok.1 ht
  obtain ⟨graphs, hgraphs, rfl⟩ := map_eq_ok.1 hcontrol
  obtain ⟨hmethod, -, -⟩ := ControlFlow.complete_of_ofMethod hm hc
  rw [hmethod] at hgraphs
  obtain ⟨w, hw, r, hr, rfl⟩ := exists_run_of_replayPaths hgraphs hvg
  exact ⟨w, r, rfl, ((ControlFlow.mem_paths_iff hm hc).1 hw).1, hr⟩

/-- A tracker that is made by running the methods of a document, in which
control goes as a table says. -/
theorem exists_tracker_of_any (d : ListingDocument) (table : List (List Nat))
    (adjacency : Adjacency Nat) (test : ValueTracker → Bool)
    (hexplore : explore (fun p => (.ok (table.getD p []) : Except FlowError (List Nat)))
      table.length [0] [] = .complete adjacency)
    (h : ((Assembly.ofDocument d).toOption.any fun a => a.methods.any fun m =>
      ControlFlow.follows m table &&
        (ofControl ⟨m, ⟨0, adjacency⟩⟩).toOption.any test) = true) :
    ∃ a m c t, Assembly.ofDocument d = .ok a ∧ m ∈ a.methods ∧ ControlFlow.ofMethod m = .ok c ∧
      ofMethod m = .ok t ∧ test t = true := by
  obtain ⟨a, m, ha, hm, h⟩ := Assembly.exists_method_of_any d _ h
  obtain ⟨hfollows, h⟩ := Bool.and_eq_true_iff.1 h
  obtain ⟨t, ht, htest⟩ := (Option.any_eq_true _ _).1 h
  have hc := ControlFlow.ofMethod_of_follows adjacency hfollows hexplore
  exact ⟨a, m, _, t, ha, hm, hc, bind_eq_ok.2 ⟨_, hc, toOption_eq_some.1 ht⟩, htest⟩

/-- **The paths of a tracker decide for all executions**: there is a
tracker exactly when every execution is replayed, however often it goes
round a loop. The stack then has the same height at every visit to a
position, on every execution. -/
theorem isOk_iff_forall_execution {d : ListingDocument} {a : Assembly}
    (ha : Assembly.ofDocument d = .ok a) (hm : m ∈ a.methods)
    (hc : ControlFlow.ofMethod m = .ok c) :
    ((∃ t, ofMethod m = .ok t) ↔
      ∀ w, ControlFlow.IsExecution m w → ∃ r, Replay.run m w = .ok r) ∧
    ((∃ t, ofMethod m = .ok t) →
      ∃ height : Nat → Nat, ∀ u p v, ControlFlow.IsExecution m (u ++ p :: v) →
        ∃ r, Replay.steps m {} u = .ok r ∧ r.stack.length = height p) := by
  have hbody := Assembly.wellFormed_of_ofDocument ha hm
  have hpaths := isOk_iff_forall_paths hbody hc
  refine ⟨⟨fun ht w hw => ?_, fun hall => hpaths.2 fun w hw => ?_⟩, fun ht => ?_⟩
  · obtain ⟨height, hlevel⟩ := Replay.exists_leveled hbody hc (hpaths.1 ht)
    exact hlevel.exists_run hw
  · exact hall w ((ControlFlow.mem_paths_iff hbody hc).1 hw).1
  · obtain ⟨height, hlevel⟩ := Replay.exists_leveled hbody hc (hpaths.1 ht)
    exact ⟨height, fun u p v hw => hlevel.exists_steps hw⟩

/-- A loop around a value that stays on the stack. -/
def lapListing : ListingDocument :=
  Assembly.testDocument 0 [("void T::M()", "ldc.i4.1\ndup\nbrtrue IL_0001\npop\nret")]

/-- The loop is replayed however often control goes round it. -/
theorem isOk_iff_forall_execution_lapListing :
    ∃ a m, Assembly.ofDocument lapListing = .ok a ∧ m ∈ a.methods ∧
      (∃ c, ControlFlow.ofMethod m = .ok c) ∧
      ∀ w, ControlFlow.IsExecution m w → ∃ r, Replay.run m w = .ok r := by
  obtain ⟨a, m, c, t, ha, hm, hc, ht, -⟩ := exists_tracker_of_any lapListing
    [[1], [2], [3, 1], [4], []] [(0, [1]), (1, [2]), (2, [3, 1]), (3, [4]), (4, [])]
    (fun _ => true) (by simp [explore, Adjacency.has, Adjacency.fresh]) (by decide +kernel)
  exact ⟨a, m, ha, hm, ⟨c, hc⟩, (isOk_iff_forall_execution ha hm hc).1.1 ⟨t, ht⟩⟩

end ValueTracker

end SmellCheck
