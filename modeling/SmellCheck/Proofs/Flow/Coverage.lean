import SmellCheck.Proofs.Assembly.Load
import SmellCheck.Proofs.Digraph.EdgeWalks
import SmellCheck.Proofs.Flow.Control
/-!
# What the enumerated paths cover

An edge that lies on an execution of any length is taken by an enumerated
path. The way to the edge and the way on from its head can be chosen
without a lap; whatever the two have in common, a position is met once on
each of them, so the path through the edge meets none more than twice
(`exists_append_mem_edgeWalks`).

Parallel edges are told apart by their index, so what is enumerated is
looked at as edge walks, which stand for the paths one by one.
-/

namespace SmellCheck.ControlFlow

open Relation

variable {m : Method} {c : ControlFlow} {p q i : Nat} {xs u : List Nat}

/-- The position is reachable from the entry. -/
def Reachable (m : Method) (p : Nat) : Prop :=
  ReflTransGen (Leads m) 0 p

/-- Control may go on from the position to a return. -/
def CanReturn (m : Method) (p : Nat) : Prop :=
  ∃ last, ReflTransGen (Leads m) p last ∧ isReturn m last = true

/-- The edge walks behind the enumerated paths, in the same order. -/
def edgeWalks (c : ControlFlow) : List (List Nat) :=
  c.returns.flatMap fun last =>
    c.graph.edgeWalksWithin last c.graph.fullAllowance c.graph.root

section Graph

variable (hm : m.body.WellFormed) (hc : ofMethod m = .ok c)

include hm hc

/-! ## Reachable positions -/

/-- Along the edges of the graph the same is reachable as control may
reach. -/
theorem reflTransGen_edge_iff (hp : p ∈ c.graph.nodes) :
    ReflTransGen c.graph.Edge p q ↔ ReflTransGen (Leads m) p q := by
  rw [← Walk.exists_iff, ← Walk.exists_iff]
  exact exists_congr fun w => walk_edge_iff hm hc hp

theorem mem_nodes_of_reachable (hp : Reachable m p) : p ∈ c.graph.nodes := by
  have hentry := entry_mem_nodes hm hc
  obtain ⟨w, hw⟩ := Walk.exists_iff.2 ((reflTransGen_edge_iff hm hc hentry).2 hp)
  exact Digraph.mem_nodes_of_walk (closed_of_ofMethod hm hc) hentry hw p hw.last_mem

/-! ## Edge walks and paths -/

/-- **Each edge walk gives one path**, in the same order. -/
theorem map_follow?_edgeWalks : c.edgeWalks.map (c.graph.follow? 0) = c.paths.map some := by
  rw [edgeWalks, paths, List.map_flatMap, List.map_flatMap, (complete_of_ofMethod hm hc).2.1]
  exact List.flatMap_congr fun last _ => Digraph.map_follow?_edgeWalksWithin

/-- **The edge walks are those of the executions that meet no position
more than twice.** -/
theorem mem_edgeWalks {indices : List Nat} : indices ∈ c.edgeWalks ↔
    ∃ w, c.graph.follow? 0 indices = some w ∧ IsExecution m w ∧ ∀ p, w.count p ≤ 2 := by
  have hclosed := closed_of_ofMethod hm hc
  have hentry := entry_mem_nodes hm hc
  obtain ⟨hmethod, hroot, -⟩ := complete_of_ofMethod hm hc
  rw [edgeWalks, List.mem_flatMap, hroot]
  constructor
  · rintro ⟨last, hlast, hmem⟩
    obtain ⟨w, hw, hstop, hcount⟩ := Digraph.mem_edgeWalksWithin.1 hmem
    obtain ⟨last', hwalk⟩ := Digraph.walk_of_follow? hw
    obtain rfl : last' = last := Option.some.inj (hwalk.getLast?.symm.trans hstop.1)
    refine ⟨w, hw, ⟨last', (walk_edge_iff hm hc hentry).1 hwalk, ?_⟩, ?_⟩
    · exact hmethod ▸ (List.mem_filter.1 hlast).2
    · exact (Digraph.count_le_fullAllowance_iff hclosed
        (Digraph.mem_nodes_of_walk hclosed hentry hwalk)).1 hcount
  · rintro ⟨w, hw, ⟨last, hwalk, hreturn⟩, hcount⟩
    have hedges := (walk_edge_iff hm hc hentry).2 hwalk
    have hnodes := Digraph.mem_nodes_of_walk hclosed hentry hedges
    refine ⟨last, List.mem_filter.2 ⟨hnodes last hedges.last_mem, hmethod ▸ hreturn⟩, ?_⟩
    exact Digraph.mem_edgeWalksWithin.2 ⟨w, hw,
      ⟨hwalk.getLast?, last_notMem_dropLast hwalk hreturn⟩,
      (Digraph.count_le_fullAllowance_iff hclosed hnodes).2 hcount⟩

/-- No edge walk is enumerated twice. -/
theorem nodup_edgeWalks : c.edgeWalks.Nodup := by
  have hreturns : c.returns.Nodup := (closed_of_ofMethod hm hc).nodup.filter _
  refine List.nodup_flatMap.2 ⟨fun last _ => ?_, hreturns.imp fun {last last'} hne => ?_⟩
  · refine (Digraph.pairwise_edgeWalksWithin c.graph last _ _).imp fun {a b} hlt heq => ?_
    exact List.lt_irrefl b (heq ▸ hlt)
  · -- edge walks to different returns have different ends
    intro indices hmem hmem'
    obtain ⟨w, hw, hstop, -⟩ := Digraph.mem_edgeWalksWithin.1 hmem
    obtain ⟨w', hw', hstop', -⟩ := Digraph.mem_edgeWalksWithin.1 hmem'
    obtain rfl : w = w' := Option.some.inj (hw.symm.trans hw')
    exact hne (Option.some.inj (hstop.1.symm.trans hstop'.1))

/-! ## The path through an edge -/

/-- There is a way to a reachable position that meets none twice. -/
theorem exists_follow?_of_reachable (hp : Reachable m p) :
    ∃ xs u, c.graph.follow? 0 xs = some (u ++ [p]) ∧ (u ++ [p]).Nodup := by
  obtain ⟨w, hw, hnodup⟩ := Walk.exists_nodup_of_reflTransGen hp
  obtain ⟨u, rfl⟩ := List.getLast?_eq_some_iff.1 hw.getLast?
  obtain ⟨xs, hxs⟩ :=
    Digraph.follow?_of_walk ((walk_edge_iff hm hc (entry_mem_nodes hm hc)).2 hw)
  exact ⟨xs, u, hxs, hnodup⟩

/-- **A way without a lap, an edge, and a way to a return** make up an
enumerated edge walk, if the second way is chosen without a lap. -/
theorem exists_append_mem_edgeWalks (hxs : c.graph.follow? 0 xs = some (u ++ [p]))
    (hnodup : (u ++ [p]).Nodup) (hi : (c.graph.headsOf p)[i]? = some q) (hq : CanReturn m q) :
    ∃ ys, xs ++ i :: ys ∈ c.edgeWalks := by
  have hentry := entry_mem_nodes hm hc
  have hedge : c.graph.Edge p q := List.mem_of_getElem? hi
  obtain ⟨last, hlast, hreturn⟩ := hq
  obtain ⟨v, hv, hvnodup⟩ := Walk.exists_nodup_of_reflTransGen hlast
  have hnode := (closed_of_ofMethod hm hc).head_mem p q hedge
  obtain ⟨ys, hys⟩ := Digraph.follow?_of_walk ((walk_edge_iff hm hc hnode).2 hv)
  have hfollow : c.graph.follow? 0 (xs ++ i :: ys) = some (u ++ p :: v) :=
    Digraph.follow?_append_eq_some.2
      ⟨u, p, p :: v, hxs, Digraph.follow?_cons_eq_some.2 ⟨q, v, hi, hys, rfl⟩, rfl⟩
  have hsplit : u ++ p :: v = u ++ [p] ++ v := List.append_cons u p v
  refine ⟨ys, (mem_edgeWalks hm hc).2 ⟨_, hfollow, ⟨last, ?_, hreturn⟩, ?_⟩⟩
  · obtain ⟨p', hu⟩ := Digraph.walk_of_follow? hxs
    obtain rfl : p' = p := by simpa using hu.getLast?.symm
    have hleads := (edge_iff_leads hm hc (Digraph.mem_nodes_of_mem_headsOf hedge)).1 hedge
    rw [hsplit]
    exact ((walk_edge_iff hm hc hentry).1 hu).append hleads hv
  · rw [hsplit]
    exact Walk.count_append_le_two hnodup hvnodup

/-- **An edge of an execution** leads from a reachable position to one
that can return. -/
theorem of_edge_of_execution {indices w : List Nat} (hw : c.graph.follow? 0 indices = some w)
    (hexecution : IsExecution m w) (hedge : (p, i) ∈ w.zip indices) :
    Reachable m p ∧ ∃ q, (c.graph.headsOf p)[i]? = some q ∧ CanReturn m q := by
  have hentry := entry_mem_nodes hm hc
  obtain ⟨before, after, u, rfl, hu⟩ := (Digraph.mem_zip_of_follow? hw).1 hedge
  obtain ⟨u', p', v, hu', hv, rfl⟩ := Digraph.follow?_append_eq_some.1 hw
  obtain ⟨rfl, hp⟩ := List.append_inj' (Option.some.inj (hu.symm.trans hu')) rfl
  obtain rfl := List.singleton_inj.1 hp
  obtain ⟨q, t, hq, ht, rfl⟩ := Digraph.follow?_cons_eq_some.1 hv
  obtain ⟨last, hwalk, hreturn⟩ := hexecution
  have hnode := (closed_of_ofMethod hm hc).head_mem p q (List.mem_of_getElem? hq)
  have hlast : t.getLast? = some last := by
    rw [← hwalk.getLast?, List.getLast?_append_of_ne_nil _ (List.cons_ne_nil p t),
      Digraph.getLast?_cons_of_follow? ht]
  refine ⟨?_, q, hq, last, ?_, hreturn⟩
  · exact (reflTransGen_edge_iff hm hc hentry).1
      (Digraph.reflTransGen_of_follow? hu List.getLast?_concat)
  · exact (reflTransGen_edge_iff hm hc hnode).1 (Digraph.reflTransGen_of_follow? ht hlast)

/-- **A position is on an enumerated path** exactly when it is reachable
and can return. -/
theorem exists_mem_paths_iff : (∃ w ∈ c.paths, p ∈ w) ↔ Reachable m p ∧ CanReturn m p := by
  constructor
  · rintro ⟨w, hw, hp⟩
    obtain ⟨⟨last, hwalk, hreturn⟩, -⟩ := (mem_paths_iff hm hc).1 hw
    obtain ⟨u, v, rfl⟩ := List.append_of_mem hp
    obtain ⟨hto, hfrom⟩ := hwalk.split
    exact ⟨hto.reflTransGen, last, hfrom.reflTransGen, hreturn⟩
  · rintro ⟨hp, last, hlast, hreturn⟩
    obtain ⟨w, hw, hwnodup⟩ := Walk.exists_nodup_of_reflTransGen hp
    obtain ⟨u, rfl⟩ := List.getLast?_eq_some_iff.1 hw.getLast?
    obtain ⟨v, hv, hvnodup⟩ := Walk.exists_nodup_of_reflTransGen hlast
    have hunodup := (List.nodup_append.1 hwnodup).1
    refine ⟨u ++ v, append_mem_paths hm hc hw hunodup hv hvnodup hreturn, ?_⟩
    obtain ⟨t, rfl⟩ := hv.exists_eq_cons
    exact List.mem_append_right u List.mem_cons_self

end Graph

/-- **The enumerated paths cover every edge of every execution.** The edge
with index `i` from position `p` is taken on some execution, of any
length, if and only if it is taken on some enumerated path; the edges that
are taken are told by the edge walk, which pairs each position with the
index of the successor it goes on to. A position is therefore on some
enumerated path exactly when it is reachable from the entry and can
return. -/
theorem paths_cover_edges {d : ListingDocument} {a : Assembly} (ha : Assembly.ofDocument d = .ok a)
    (hm : m ∈ a.methods) (hc : ofMethod m = .ok c) :
    (∀ p, Reachable m p → successors m p = .ok (c.graph.headsOf p)) ∧
    c.paths.map some = c.edgeWalks.map (c.graph.follow? 0) ∧
    (∀ p i,
      (∃ indices w, c.graph.follow? 0 indices = some w ∧ IsExecution m w ∧
        (p, i) ∈ w.zip indices) ↔
      ∃ indices ∈ c.edgeWalks, ∃ w ∈ c.paths, c.graph.follow? 0 indices = some w ∧
        (p, i) ∈ w.zip indices) ∧
    ∀ p, (∃ w ∈ c.paths, p ∈ w) ↔ Reachable m p ∧ CanReturn m p := by
  have hbody := Assembly.wellFormed_of_ofDocument ha hm
  refine ⟨fun p hp => successors_eq_headsOf hbody hc (mem_nodes_of_reachable hbody hc hp),
    (map_follow?_edgeWalks hbody hc).symm, fun p i => ⟨?_, ?_⟩,
    fun p => exists_mem_paths_iff hbody hc⟩
  · rintro ⟨indices, w, hw, hexecution, hedge⟩
    obtain ⟨hp, q, hq, hreturn⟩ := of_edge_of_execution hbody hc hw hexecution hedge
    obtain ⟨xs, u, hxs, hnodup⟩ := exists_follow?_of_reachable hbody hc hp
    obtain ⟨ys, hmem⟩ := exists_append_mem_edgeWalks hbody hc hxs hnodup hq hreturn
    obtain ⟨w', hw', hpath⟩ := (mem_edgeWalks hbody hc).1 hmem
    exact ⟨_, hmem, w', (mem_paths_iff hbody hc).2 hpath, hw',
      (Digraph.mem_zip_of_follow? hw').2 ⟨xs, ys, u, rfl, hxs⟩⟩
  · rintro ⟨indices, -, w, hpath, hw, hedge⟩
    exact ⟨indices, w, hw, ((mem_paths_iff hbody hc).1 hpath).1, hedge⟩

/-- A loop around a branch whose target is the next instruction. -/
def parallelListing : ListingDocument :=
  Assembly.testDocument 0 [("void T::M()",
    "ldc.i4.1\nbrtrue IL_0002\nldc.i4.0\nbrtrue IL_0000\nret")]

/-- How control goes in it: the branch to the next instruction has two
edges to it. -/
def parallelGraph : Digraph Nat :=
  ⟨0, [(0, [1]), (1, [2, 2]), (2, [3]), (3, [4, 0]), (4, [])]⟩

theorem exists_parallelListing :
    ∃ a m, Assembly.ofDocument parallelListing = .ok a ∧ m ∈ a.methods ∧
      ofMethod m = .ok ⟨m, parallelGraph⟩ ∧ isReturn m 4 = true := by
  obtain ⟨a, m, ha, hm, h⟩ := Assembly.exists_method_of_any parallelListing
    (fun m => follows m [[1], [2, 2], [3], [4, 0], []] && isReturn m 4) (by decide +kernel)
  obtain ⟨hfollows, hreturn⟩ := Bool.and_eq_true_iff.1 h
  exact ⟨a, m, ha, hm, ofMethod_of_follows _ hfollows
    (by simp [explore, Adjacency.has, Adjacency.fresh]), hreturn⟩

/-- An execution of three laps takes the second of two parallel edges on
its last lap, and so does an enumerated path. -/
theorem paths_cover_edges_parallelListing :
    ∃ a m c w, Assembly.ofDocument parallelListing = .ok a ∧ m ∈ a.methods ∧ ofMethod m = .ok c ∧
      c.graph.follow? 0 [0, 0, 0, 1, 0, 0, 0, 1, 0, 1, 0, 0] = some w ∧ IsExecution m w ∧
      w.count 1 = 3 ∧
      ∃ indices ∈ c.edgeWalks, ∃ w ∈ c.paths, c.graph.follow? 0 indices = some w ∧
        (1, 1) ∈ w.zip indices := by
  obtain ⟨a, m, ha, hm, hc, hreturn⟩ := exists_parallelListing
  have hbody := Assembly.wellFormed_of_ofDocument ha hm
  have hw : parallelGraph.follow? 0 [0, 0, 0, 1, 0, 0, 0, 1, 0, 1, 0, 0] =
      some [0, 1, 2, 3, 0, 1, 2, 3, 0, 1, 2, 3, 4] := by decide
  have hexecution : IsExecution m [0, 1, 2, 3, 0, 1, 2, 3, 0, 1, 2, 3, 4] := by
    obtain ⟨last, hwalk⟩ := Digraph.walk_of_follow? hw
    obtain rfl : last = 4 := Option.some.inj hwalk.getLast?.symm
    exact ⟨4, (walk_edge_iff hbody hc (entry_mem_nodes hbody hc)).1 hwalk, hreturn⟩
  exact ⟨a, m, _, _, ha, hm, hc, hw, hexecution, by decide,
    ((paths_cover_edges ha hm hc).2.2.1 1 1).1 ⟨_, _, hw, hexecution, by decide⟩⟩

end SmellCheck.ControlFlow
