import SmellCheck.Proofs.Flow.Coverage
import SmellCheck.Smell.Finding
/-!
# Tests that branch

The rule on branches counts enumerated paths, which meet no position more
than twice, and looks for a loop on one of them. What it reports does not
depend on that bound: there is a finding exactly if some reachable
position is a fork, from which two different edges lead on to returns.

Two enumerated paths part at a fork. From a fork, one way to it without a
lap goes on through either edge, which gives two enumerated paths. And a
path with a loop is never the only one, since cutting the loop out gives
another (`two_le_length_of_not_nodup`).
-/

namespace SmellCheck

open Relation

/-- A path has a loop if it meets a position twice. -/
theorem containsLoop_iff {w : List Nat} : containsLoop w = true ↔ ¬ w.Nodup := by
  induction w with
  | nil => simp [containsLoop]
  | cons p w ih =>
    rw [containsLoop, Bool.or_eq_true, List.contains_iff_mem, ih, List.nodup_cons, not_and_or,
      not_not]

/-- A list with two different members has at least two. -/
theorem two_le_length_of_ne {α : Type} {l : List α} {a b : α} (ha : a ∈ l) (hb : b ∈ l)
    (hne : a ≠ b) : 2 ≤ l.length := by
  have hnodup : [a, b].Nodup := by simpa using hne
  have hsub : [a, b] ⊆ l := List.cons_subset.2 ⟨ha, List.cons_subset.2 ⟨hb, List.nil_subset l⟩⟩
  exact (hnodup.subperm hsub).length_le

namespace ControlFlow

variable {m : Method} {c : ControlFlow} {p : Nat}

/-- **A fork**: two different edges from the position lead to positions
that can return. Parallel edges differ by their index. -/
def IsFork (m : Method) (p : Nat) : Prop :=
  ∃ (heads : List Nat) (i j a b : Nat), successors m p = .ok heads ∧ i ≠ j ∧
    heads[i]? = some a ∧ heads[j]? = some b ∧ CanReturn m a ∧ CanReturn m b

section Graph

variable (hm : m.body.WellFormed) (hc : ofMethod m = .ok c)

include hm hc

theorem length_edgeWalks : c.edgeWalks.length = c.paths.length := by
  simpa using congrArg List.length (map_follow?_edgeWalks hm hc)

/-- A return has no heads. -/
theorem headsOf_of_isReturn (hreturn : isReturn m p = true) : c.graph.headsOf p = [] := by
  refine List.eq_nil_iff_forall_not_mem.2 fun q hq => ?_
  exact not_leads_of_isReturn hreturn
    ((edge_iff_leads hm hc (Digraph.mem_nodes_of_mem_headsOf hq)).1 hq)

/-- Two different edge walks that are enumerated part at a fork. -/
theorem exists_isFork_of_ne {xs ys : List Nat} (hxs : xs ∈ c.edgeWalks) (hys : ys ∈ c.edgeWalks)
    (hne : xs ≠ ys) : ∃ p, Reachable m p ∧ IsFork m p := by
  have hentry := entry_mem_nodes hm hc
  obtain ⟨w, hw, ⟨last, hwalk, hreturn⟩, -⟩ := (mem_edgeWalks hm hc).1 hxs
  obtain ⟨w', hw', ⟨last', hwalk', hreturn'⟩, -⟩ := (mem_edgeWalks hm hc).1 hys
  obtain ⟨p, i, j, a, b, hp, hij, ha, hb, hlast, hlast'⟩ := Digraph.exists_fork hw hw'
    hwalk.getLast? hwalk'.getLast? (headsOf_of_isReturn hm hc hreturn)
    (headsOf_of_isReturn hm hc hreturn') hne
  have hp : Reachable m p := (reflTransGen_edge_iff hm hc hentry).1 hp
  have hheads : ∀ {k q : Nat}, (c.graph.headsOf p)[k]? = some q → q ∈ c.graph.nodes :=
    fun hq => (closed_of_ofMethod hm hc).head_mem p _ (List.mem_of_getElem? hq)
  refine ⟨p, hp, c.graph.headsOf p, i, j, a, b,
    successors_eq_headsOf hm hc (mem_nodes_of_reachable hm hc hp), hij, ha, hb, ?_, ?_⟩
  · exact ⟨last, (reflTransGen_edge_iff hm hc (hheads ha)).1 hlast, hreturn⟩
  · exact ⟨last', (reflTransGen_edge_iff hm hc (hheads hb)).1 hlast', hreturn'⟩

/-- **There are several paths exactly if a reachable position is a
fork.** -/
theorem two_le_length_paths_iff : 2 ≤ c.paths.length ↔ ∃ p, Reachable m p ∧ IsFork m p := by
  rw [← length_edgeWalks hm hc]
  constructor
  · intro hlength
    have hnodup := nodup_edgeWalks hm hc
    have hne : c.edgeWalks[0] ≠ c.edgeWalks[1] := fun heq =>
      absurd (hnodup.getElem_inj_iff.1 heq) Nat.zero_ne_one
    exact exists_isFork_of_ne hm hc (List.getElem_mem _) (List.getElem_mem _) hne
  · rintro ⟨p, hp, heads, i, j, a, b, hheads, hij, ha, hb, hreturn, hreturn'⟩
    rw [successors_eq_headsOf hm hc (mem_nodes_of_reachable hm hc hp)] at hheads
    cases hheads
    -- both edges follow one and the same way to the fork
    obtain ⟨xs, u, hxs, hnodup⟩ := exists_follow?_of_reachable hm hc hp
    obtain ⟨ys, hys⟩ := exists_append_mem_edgeWalks hm hc hxs hnodup ha hreturn
    obtain ⟨ys', hys'⟩ := exists_append_mem_edgeWalks hm hc hxs hnodup hb hreturn'
    refine two_le_length_of_ne hys hys' fun heq => hij ?_
    exact (List.cons.inj (List.append_cancel_left heq)).1

/-- **A path with a loop is not the only one**: without its laps it is
another. -/
theorem two_le_length_of_not_nodup {w : List Nat} (hw : w ∈ c.paths) (hloop : ¬ w.Nodup) :
    2 ≤ c.paths.length := by
  obtain ⟨⟨last, hwalk, hreturn⟩, -⟩ := (mem_paths_iff hm hc).1 hw
  obtain ⟨w', hwalk', hnodup, -⟩ := hwalk.exists_nodup
  have hw' : w' ∈ c.paths := (mem_paths_iff hm hc).2 ⟨⟨last, hwalk', hreturn⟩, fun p =>
    Nat.le_succ_of_le (List.nodup_iff_count_le_one.1 hnodup p)⟩
  exact two_le_length_of_ne hw hw' fun heq => hloop (heq ▸ hnodup)

end Graph

end ControlFlow

namespace TestCase

variable {m : Method} {tc : TestCase}

theorem conditionalLogic_ne_nil : tc.conditionalLogic ≠ [] ↔
    2 ≤ tc.paths.length ∨ ∃ w ∈ tc.paths, ¬ w.Nodup := by
  simp only [← containsLoop_iff]
  rw [← List.any_eq_true, conditionalLogic]
  cases tc.paths.any containsLoop <;> simp [Nat.lt_iff_add_one_le]

/-- **The rule on branches is exact**: it reports a finding if and only if
some reachable position of the test is a fork. Whenever an enumerated path
comes back to a position there are at least two enumerated paths. -/
theorem conditionalLogic_iff_isFork {d : ListingDocument} {a : Assembly} {r : Registry}
    (ha : Assembly.ofDocument d = .ok a) (hm : m ∈ a.methods) (htc : ofMethod a r m = .ok tc)
    (limit : Nat) :
    (∃ findings, tc.check limit .conditionalLogic = .ok findings ∧
      (findings ≠ [] ↔ ∃ p, ControlFlow.Reachable m p ∧ ControlFlow.IsFork m p)) ∧
    ((∃ w ∈ tc.paths, ¬ w.Nodup) → 2 ≤ tc.paths.length) := by
  have hbody := Assembly.wellFormed_of_ofDocument ha hm
  obtain ⟨c, hc, rfl⟩ := map_eq_ok.1 htc
  have hloops : (∃ w ∈ c.paths, ¬ w.Nodup) → 2 ≤ c.paths.length := by
    rintro ⟨w, hw, hloop⟩
    exact ControlFlow.two_le_length_of_not_nodup hbody hc hw hloop
  refine ⟨⟨_, rfl, ?_⟩, hloops⟩
  rw [← ControlFlow.two_le_length_paths_iff hbody hc, conditionalLogic_ne_nil]
  exact or_iff_left_of_imp hloops

/-- The parallel edges of a branch to the next instruction are a fork. -/
theorem conditionalLogic_iff_isFork_parallelListing :
    ∃ a m tc findings, Assembly.ofDocument ControlFlow.parallelListing = .ok a ∧ m ∈ a.methods ∧
      ofMethod a Registry.builtin m = .ok tc ∧ tc.check 1 .conditionalLogic = .ok findings ∧
      ControlFlow.IsFork m 1 ∧ findings ≠ [] := by
  obtain ⟨a, m, ha, hm, hc, hreturn⟩ := ControlFlow.exists_parallelListing
  have hbody := Assembly.wellFormed_of_ofDocument ha hm
  have hnodes : ∀ p < 5, p ∈ ControlFlow.parallelGraph.nodes := by decide
  have hreachable : ControlFlow.Reachable m 1 :=
    (ControlFlow.reflTransGen_edge_iff hbody hc (hnodes 0 (by decide))).1
      (.single (show 1 ∈ ControlFlow.parallelGraph.headsOf 0 by decide))
  have hreturns : ControlFlow.CanReturn m 2 :=
    ⟨4, (ControlFlow.reflTransGen_edge_iff hbody hc (hnodes 2 (by decide))).1
      (.head (show 3 ∈ ControlFlow.parallelGraph.headsOf 2 by decide)
        (.single (show 4 ∈ ControlFlow.parallelGraph.headsOf 3 by decide))), hreturn⟩
  have hfork : ControlFlow.IsFork m 1 := ⟨[2, 2], 0, 1, 2, 2,
    ControlFlow.successors_eq_headsOf hbody hc (hnodes 1 (by decide)), by decide, rfl, rfl,
    hreturns, hreturns⟩
  have htc : ofMethod a Registry.builtin m = .ok _ := map_eq_ok.2 ⟨_, hc, rfl⟩
  obtain ⟨⟨findings, hcheck, hiff⟩, -⟩ := conditionalLogic_iff_isFork ha hm htc 1
  exact ⟨a, m, _, findings, ha, hm, htc, hcheck, hfork, hiff.2 ⟨1, hreachable, hfork⟩⟩

end TestCase

end SmellCheck
