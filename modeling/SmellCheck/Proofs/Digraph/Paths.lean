import SmellCheck.Digraph.Paths
import SmellCheck.Proofs.Digraph.Explore
import SmellCheck.Proofs.Digraph.Walks
import Mathlib.Data.List.Pairwise
/-!
# The paths between two nodes

An edge walk is told by the indices of the heads that it takes, so that
parallel edges differ. The paths that are listed between two nodes are
those of the edge walks that stop at their first arrival and meet no node
more than twice: each of these walks gives one path, and the paths stand
in the lexicographic order of the indices.

The same list comes out of a search that keeps one path and one count of
visits, changes both on the way down and changes them back on the way up
(`backtrack`). Its calls are nested no deeper than there are visits to
spend, and it leaves path and counts as it met them.
-/

namespace SmellCheck.Digraph

variable {N : Type} [DecidableEq N]

/-! ## Edge walks -/

/-- An edge of the graph. -/
def Edge (g : Digraph N) (n head : N) : Prop := head ∈ g.headsOf n

/-- The nodes that an edge walk meets from a node on, by the indices of
the heads that it takes; `none` if a node has no such head. -/
def follow? (g : Digraph N) (n : N) : List Nat → Option (List N)
  | [] => some [n]
  | index :: indices =>
    match (g.headsOf n)[index]? with
    | none => none
    | some head => (g.follow? head indices).map (n :: ·)

/-- The nodes end at their first arrival at the target. -/
def StopsAt (target : N) (w : List N) : Prop :=
  w.getLast? = some target ∧ target ∉ w.dropLast

/-- **The edge walk is a path between two nodes**: it can be followed,
stops at its first arrival and meets no node more than twice. -/
def IsEdgePath (g : Digraph N) (start target : N) (indices : List Nat) : Prop :=
  ∃ w, g.follow? start indices = some w ∧ StopsAt target w ∧ ∀ n, w.count n ≤ 2

variable {g : Digraph N} {target n : N} {w : List N} {allowance : List N}

theorem follow?_cons {index : Nat} {indices : List Nat} {head : N}
    (h : (g.headsOf n)[index]? = some head) :
    g.follow? n (index :: indices) = (g.follow? head indices).map (n :: ·) := by
  rw [follow?, h]

/-- What is followed is a walk along edges. -/
theorem walk_of_follow? {indices : List Nat} (h : g.follow? n indices = some w) :
    ∃ last, Walk g.Edge n last w := by
  induction indices generalizing n w with
  | nil =>
    cases h
    exact ⟨n, .single n⟩
  | cons index indices ih =>
    rw [follow?] at h
    split at h
    · cases h
    · rename_i head hhead
      obtain ⟨w', hw', rfl⟩ := Option.map_eq_some_iff.1 h
      obtain ⟨last, hlast⟩ := ih hw'
      exact ⟨last, .cons (List.mem_of_getElem? hhead) hlast⟩

/-- A walk along edges can be followed by indices. -/
theorem follow?_of_walk {last : N} (h : Walk g.Edge n last w) :
    ∃ indices, g.follow? n indices = some w := by
  induction h with
  | single n => exact ⟨[], rfl⟩
  | cons hedge _ ih =>
    obtain ⟨indices, hindices⟩ := ih
    obtain ⟨index, hindex⟩ := List.mem_iff_getElem?.1 hedge
    exact ⟨index :: indices, by rw [follow?_cons hindex, hindices, Option.map_some]⟩

/-- Nodes that are followed begin with the first one. -/
theorem exists_eq_cons_of_follow? {indices : List Nat} (h : g.follow? n indices = some w) :
    ∃ t, w = n :: t := by
  obtain ⟨last, hw⟩ := walk_of_follow? h
  exact hw.exists_eq_cons

omit [DecidableEq N] in
theorem stopsAt_singleton : StopsAt target [n] ↔ n = target := by
  simp [StopsAt]

omit [DecidableEq N] in
theorem stopsAt_cons {t : List N} {head : N} :
    StopsAt target (n :: head :: t) ↔ n ≠ target ∧ StopsAt target (head :: t) := by
  simp only [StopsAt, List.getLast?_cons_cons, List.dropLast_cons_cons, List.mem_cons, not_or]
  constructor
  · rintro ⟨hlast, hne, hmem⟩
    exact ⟨fun h => hne h.symm, hlast, hmem⟩
  · rintro ⟨hne, hlast, hmem⟩
    exact ⟨hlast, fun h => hne h.symm, hmem⟩

/-- One visit more is within an allowance if the node has one left and
the others are within the rest. -/
theorem count_cons_le_iff :
    (∀ x, (n :: w).count x ≤ allowance.count x) ↔
      n ∈ allowance ∧ ∀ x, w.count x ≤ (allowance.erase n).count x := by
  constructor
  · intro h
    have hn : n ∈ allowance := by
      have := h n
      rw [List.count_cons_self] at this
      exact List.count_pos_iff.1 (by omega)
    refine ⟨hn, fun x => ?_⟩
    have hx := h x
    rw [List.count_cons] at hx
    rw [List.count_erase]
    omega
  · rintro ⟨hn, h⟩ x
    have hx := h x
    have hpos := List.count_pos_iff.2 hn
    rw [List.count_erase] at hx
    rw [List.count_cons]
    by_cases hxn : n = x
    · subst hxn
      simp only [beq_self_eq_true, if_true] at hx ⊢
      omega
    · simp only [beq_iff_eq, hxn, if_false] at hx ⊢
      omega

/-! ## The edge walks of the listed paths -/

/-- The edge walks behind the paths within an allowance, in the same
order. -/
def edgeWalksWithin (g : Digraph N) (target : N) (allowance : List N) (n : N) : List (List Nat) :=
  if _h : n ∈ allowance then
    if n = target then [[]]
    else
      (g.headsOf n).zipIdx.flatMap fun (head, index) =>
        (edgeWalksWithin g target (allowance.erase n) head).map (index :: ·)
  else []
termination_by allowance.length
decreasing_by
  have := List.length_pos_of_mem _h
  rw [List.length_erase_of_mem _h]
  omega

/-- Without a visit left there is no path. -/
theorem pathsWithin_of_notMem (h : n ∉ allowance) : g.pathsWithin target allowance n = [] := by
  rw [pathsWithin, dif_neg h]

/-- At the target the path ends. -/
theorem pathsWithin_target (h : target ∈ allowance) :
    g.pathsWithin target allowance target = [[target]] := by
  rw [pathsWithin, dif_pos h, if_pos rfl]

/-- Elsewhere the paths go on through the heads. -/
theorem pathsWithin_of_ne (h : n ∈ allowance) (hne : n ≠ target) :
    g.pathsWithin target allowance n =
      ((g.headsOf n).flatMap (g.pathsWithin target (allowance.erase n))).map (n :: ·) := by
  rw [pathsWithin, dif_pos h, if_neg hne]

/-- **Each edge walk gives one path**, in the order of the list. -/
theorem map_follow?_edgeWalksWithin :
    (g.edgeWalksWithin target allowance n).map (g.follow? n) =
      (g.pathsWithin target allowance n).map some := by
  fun_induction edgeWalksWithin g target allowance n with
  | case1 allowance h => rw [pathsWithin_target h]; rfl
  | case2 allowance n h hne ih =>
    rw [pathsWithin_of_ne h hne, List.map_flatMap, List.map_map, List.map_flatMap]
    -- through one head, the index in front of a walk puts the node in front of its path
    have hfollow : ∀ p ∈ (g.headsOf n).zipIdx,
        ((g.edgeWalksWithin target (allowance.erase n) p.1).map (p.2 :: ·)).map (g.follow? n) =
          (g.pathsWithin target (allowance.erase n) p.1).map (some ∘ (n :: ·)) := by
      rintro ⟨head, index⟩ hp
      have hhead : (g.headsOf n)[index]? = some head := List.mem_zipIdx_iff_getElem?.1 hp
      calc ((g.edgeWalksWithin target (allowance.erase n) head).map (index :: ·)).map (g.follow? n)
          = ((g.edgeWalksWithin target (allowance.erase n) head).map (g.follow? head)).map
              (Option.map (n :: ·)) := by
            rw [List.map_map, List.map_map]
            exact List.map_congr_left fun indices _ => follow?_cons hhead
        _ = (g.pathsWithin target (allowance.erase n) head).map (some ∘ (n :: ·)) := by
            rw [ih head, List.map_map]; rfl
    calc (g.headsOf n).zipIdx.flatMap (fun p =>
          ((g.edgeWalksWithin target (allowance.erase n) p.1).map (p.2 :: ·)).map (g.follow? n))
        = (g.headsOf n).zipIdx.flatMap (fun p =>
            (g.pathsWithin target (allowance.erase n) p.1).map (some ∘ (n :: ·))) :=
          List.flatMap_congr hfollow
      _ = ((g.headsOf n).zipIdx.map Prod.fst).flatMap (fun head =>
            (g.pathsWithin target (allowance.erase n) head).map (some ∘ (n :: ·))) := by
          rw [List.flatMap_map]
      _ = _ := by rw [List.zipIdx_map_fst]
  | case3 allowance n h => rw [pathsWithin_of_notMem h]; rfl

/-- **The edge walks are listed in lexicographic order**, so none of them
twice. -/
theorem pairwise_edgeWalksWithin (g : Digraph N) (target : N) (allowance : List N) (n : N) :
    (g.edgeWalksWithin target allowance n).Pairwise (· < ·) := by
  fun_induction edgeWalksWithin g target allowance n with
  | case1 => exact List.pairwise_singleton _ _
  | case2 allowance n h hne ih =>
    rw [List.pairwise_flatMap]
    -- through one head the rests decide, and between two heads their indices
    constructor
    · rintro ⟨head, index⟩ -
      rw [List.pairwise_map]
      exact (ih head).imp fun hlt => List.cons_lt_cons_iff.2 (Or.inr ⟨rfl, hlt⟩)
    · have hindex : (g.headsOf n).zipIdx.Pairwise (fun p q => p.2 < q.2) := by
        rw [← List.pairwise_map, List.zipIdx_map_snd]
        exact List.pairwise_lt_range'
      refine hindex.imp fun hlt ks hks ks' hks' => ?_
      obtain ⟨t, -, rfl⟩ := List.mem_map.1 hks
      obtain ⟨t', -, rfl⟩ := List.mem_map.1 hks'
      exact List.cons_lt_cons_iff.2 (Or.inl hlt)
  | case3 => exact List.Pairwise.nil

/-- **The edge walks are those that stop at the target and stay within
the allowance.** -/
theorem mem_edgeWalksWithin {indices : List Nat} :
    indices ∈ g.edgeWalksWithin target allowance n ↔
      ∃ w, g.follow? n indices = some w ∧ StopsAt target w ∧
        ∀ x, w.count x ≤ allowance.count x := by
  fun_induction edgeWalksWithin g target allowance n generalizing indices with
  | case1 allowance h =>
    constructor
    · intro hmem
      rw [List.mem_singleton.1 hmem]
      refine ⟨[target], rfl, stopsAt_singleton.2 rfl, ?_⟩
      exact count_cons_le_iff.2 ⟨h, fun x => by simp⟩
    · rintro ⟨w, hw, hstop, -⟩
      cases indices with
      | nil => exact List.mem_singleton_self _
      | cons index indices =>
        -- a walk that goes on from the target has arrived before
        rw [follow?] at hw
        split at hw
        · cases hw
        · obtain ⟨w', hw', rfl⟩ := Option.map_eq_some_iff.1 hw
          obtain ⟨t, rfl⟩ := exists_eq_cons_of_follow? hw'
          exact absurd rfl (stopsAt_cons.1 hstop).1
  | case2 allowance n h hne ih =>
    constructor
    · intro hmem
      obtain ⟨⟨head, index⟩, hp, hmem⟩ := List.mem_flatMap.1 hmem
      obtain ⟨rest, hrest, rfl⟩ := List.mem_map.1 hmem
      obtain ⟨w, hw, hstop, hcount⟩ := (ih head).1 hrest
      obtain ⟨t, rfl⟩ := exists_eq_cons_of_follow? hw
      refine ⟨n :: head :: t, ?_, stopsAt_cons.2 ⟨hne, hstop⟩, count_cons_le_iff.2 ⟨h, hcount⟩⟩
      rw [follow?_cons (List.mem_zipIdx_iff_getElem?.1 hp), hw, Option.map_some]
    · rintro ⟨w, hw, hstop, hcount⟩
      cases indices with
      | nil =>
        cases hw
        exact absurd (stopsAt_singleton.1 hstop) hne
      | cons index indices =>
        rw [follow?] at hw
        split at hw
        · cases hw
        · rename_i head hhead
          obtain ⟨w', hw', rfl⟩ := Option.map_eq_some_iff.1 hw
          obtain ⟨t, rfl⟩ := exists_eq_cons_of_follow? hw'
          have hrest : indices ∈ g.edgeWalksWithin target (allowance.erase n) head :=
            (ih head).2 ⟨_, hw', (stopsAt_cons.1 hstop).2, (count_cons_le_iff.1 hcount).2⟩
          exact List.mem_flatMap.2 ⟨(head, index), List.mem_zipIdx_iff_getElem?.2 hhead,
            List.mem_map_of_mem hrest⟩
  | case3 allowance n h =>
    constructor
    · intro hmem
      exact absurd hmem List.not_mem_nil
    · rintro ⟨w, hw, -, hcount⟩
      obtain ⟨t, rfl⟩ := exists_eq_cons_of_follow? hw
      exact absurd (count_cons_le_iff.1 hcount).1 h

/-- The paths within an allowance are walks that stop at the target. -/
theorem mem_pathsWithin :
    w ∈ g.pathsWithin target allowance n ↔
      Walk g.Edge n target w ∧ target ∉ w.dropLast ∧ ∀ x, w.count x ≤ allowance.count x := by
  have hmem : w ∈ g.pathsWithin target allowance n ↔
      some w ∈ (g.edgeWalksWithin target allowance n).map (g.follow? n) := by
    rw [map_follow?_edgeWalksWithin]
    simp
  rw [hmem, List.mem_map]
  constructor
  · rintro ⟨indices, hindices, hw⟩
    obtain ⟨w', hw', hstop, hcount⟩ := mem_edgeWalksWithin.1 hindices
    obtain rfl : w' = w := Option.some.inj (hw'.symm.trans hw)
    obtain ⟨last, hwalk⟩ := walk_of_follow? hw'
    obtain rfl : last = target := Option.some.inj (hwalk.getLast?.symm.trans hstop.1)
    exact ⟨hwalk, hstop.2, hcount⟩
  · rintro ⟨hwalk, hfirst, hcount⟩
    obtain ⟨indices, hw⟩ := follow?_of_walk hwalk
    exact ⟨indices, mem_edgeWalksWithin.2 ⟨w, hw, ⟨hwalk.getLast?, hfirst⟩, hcount⟩, hw⟩

/-! ## The full allowance -/

/-- A path starts with two visits for each time that a node is listed. -/
theorem count_flatMap_replicate (l : List N) (x : N) :
    (l.flatMap fun n => List.replicate visitsPerPath n).count x = 2 * l.count x := by
  induction l with
  | nil => rfl
  | cons n l ih =>
    rw [List.flatMap_cons, List.count_append, ih, List.count_replicate, List.count_cons]
    by_cases h : n = x
    · simp only [h, beq_self_eq_true, if_true, visitsPerPath]
      omega
    · simp only [beq_iff_eq, h, if_false]
      omega

theorem count_fullAllowance (hg : g.Closed) {x : N} (hx : x ∈ g.nodes) :
    g.fullAllowance.count x = 2 := by
  rw [fullAllowance, count_flatMap_replicate, List.count_eq_one_of_mem hg.nodup hx]

omit [DecidableEq N] in
theorem length_fullAllowance (g : Digraph N) : g.fullAllowance.length = 2 * g.order := by
  simp only [fullAllowance, List.length_flatMap, List.length_replicate, visitsPerPath,
    List.map_const', List.sum_replicate_nat, nodes, Adjacency.nodes, List.length_map, order]
  exact Nat.mul_comm _ _

/-- Nodes of the graph are within the full allowance if none of them is
met more than twice. -/
theorem count_le_fullAllowance_iff (hg : g.Closed) (hw : ∀ x ∈ w, x ∈ g.nodes) :
    (∀ x, w.count x ≤ g.fullAllowance.count x) ↔ ∀ x, w.count x ≤ 2 := by
  refine forall_congr' fun x => ?_
  by_cases hx : x ∈ w
  · rw [count_fullAllowance hg (hw x hx)]
  · rw [List.count_eq_zero_of_not_mem hx]
    simp

/-- A walk stays on the nodes of the graph. -/
theorem mem_nodes_of_walk (hg : g.Closed) (hn : n ∈ g.nodes) {last : N}
    (h : Walk g.Edge n last w) : ∀ x ∈ w, x ∈ g.nodes :=
  h.forall_of_forall_step hn fun x y _ hxy => hg.head_mem x y hxy

/-- **The paths between two nodes are the walks that stop at their first
arrival and meet no node more than twice.** -/
theorem mem_pathsWithin_full (hg : g.Closed) (hn : n ∈ g.nodes) :
    w ∈ g.pathsWithin target g.fullAllowance n ↔
      Walk g.Edge n target w ∧ target ∉ w.dropLast ∧ ∀ x, w.count x ≤ 2 := by
  rw [mem_pathsWithin]
  refine and_congr_right fun hwalk => and_congr_right fun _ => ?_
  exact count_le_fullAllowance_iff hg (mem_nodes_of_walk hg hn hwalk)

/-! ## The search with one path and one count -/

/-- The state of a search: the path from its start to where it stands,
last node first, the visits on that path, and the paths found so far. -/
structure Search (N : Type) where
  path : List N := []
  visits : N → Nat := fun _ => 0
  found : List (List N) := []

namespace Search

/-- Goes on to a node. -/
def enter (s : Search N) (n : N) : Search N :=
  { s with path := n :: s.path, visits := fun x => if x = n then s.visits x + 1 else s.visits x }

/-- Goes back from a node. -/
def leave (s : Search N) (n : N) : Search N :=
  { s with path := s.path.tail, visits := fun x => if x = n then s.visits x - 1 else s.visits x }

/-- Keeps a copy of the path. -/
def record (s : Search N) : Search N :=
  { s with found := s.found ++ [s.path.reverse] }

/-- Going back undoes going on, whatever was found in between. -/
theorem leave_enter (s : Search N) (n : N) (found : List (List N)) :
    leave { s.enter n with found } n = { s with found } := by
  have hvisits : (fun x => if x = n then (if x = n then s.visits x + 1 else s.visits x) - 1
      else if x = n then s.visits x + 1 else s.visits x) = s.visits := by
    funext x
    by_cases hx : x = n
    · simp [hx]
    · simp [hx]
  simp only [leave, enter, List.tail_cons, hvisits]

end Search

/-- **The backtracking search** for the paths to a target: it visits a
node unless the path has met it twice, records the path at the target,
visits the heads elsewhere, and goes back. `none` if the calls are nested
deeper than the given depth. -/
def backtrack (g : Digraph N) (target : N) : Nat → N → Search N → Option (Search N)
  | 0, _, _ => none
  | depth + 1, n, s =>
    if visitsPerPath ≤ s.visits n then some s
    else
      let inside :=
        if n = target then some (s.enter n).record
        else (g.headsOf n).foldlM (fun s head => g.backtrack target depth head s) (s.enter n)
      inside.map (·.leave n)

/-- The visits left in the allowance are those that the path has not
spent. -/
def Search.Spends (g : Digraph N) (s : Search N) (allowance : List N) : Prop :=
  ∀ x ∈ g.nodes, allowance.count x + s.visits x = visitsPerPath

/-- Going on to a node spends a visit. -/
theorem Search.Spends.enter {s : Search N} (h : s.Spends g allowance) (hn : n ∈ allowance) :
    (s.enter n).Spends g (allowance.erase n) := by
  intro x hx
  have hpos := List.count_pos_iff.2 hn
  have hspent := h x hx
  rw [List.count_erase]
  by_cases hxn : x = n
  · subst hxn
    simp only [Search.enter, beq_self_eq_true, if_true]
    omega
  · simp only [Search.enter, beq_iff_eq, Ne.symm hxn, hxn, if_false]
    omega

/-- The search goes through the heads of a node one by one. -/
theorem foldlM_backtrack {depth : Nat} (heads : List N) (s : Search N)
    (ih : ∀ head ∈ heads, ∀ found, g.backtrack target depth head { s with found } =
      some { s with
        found := found ++ (g.pathsWithin target allowance head).map (s.path.reverse ++ ·) }) :
    heads.foldlM (fun s head => g.backtrack target depth head s) s =
      some { s with
        found := s.found ++
          (heads.flatMap (g.pathsWithin target allowance)).map (s.path.reverse ++ ·) } := by
  induction heads generalizing s with
  | nil => simp [pure]
  | cons head heads ihs =>
    have hhead := ih head List.mem_cons_self s.found
    have hrest := ihs { s with
      found := s.found ++ (g.pathsWithin target allowance head).map (s.path.reverse ++ ·) }
      fun k hk found => ih k (List.mem_cons_of_mem _ hk) found
    rw [List.foldlM_cons, hhead]
    simp only [Option.bind_eq_bind, Option.bind_some]
    rw [hrest, List.flatMap_cons, List.map_append, List.append_assoc]

/-- **The backtracking search ends, finds the listed paths and restores
its state.** One level of nesting for each visit that is left, and one
for the call that finds none, is enough. -/
theorem backtrack_eq (hg : g.Closed) {depth : Nat} {s : Search N} (hn : n ∈ g.nodes)
    (hspent : s.Spends g allowance) (hdepth : allowance.length < depth) :
    g.backtrack target depth n s =
      some { s with
        found := s.found ++ (g.pathsWithin target allowance n).map (s.path.reverse ++ ·) } := by
  -- a call passes on one visit less, so the depth is what bounds the calls
  induction depth generalizing n s allowance with
  | zero => omega
  | succ depth ih =>
    have hcount := hspent n hn
    rw [backtrack]
    by_cases hmem : n ∈ allowance
    · have hpos := List.count_pos_iff.2 hmem
      rw [if_neg (by omega)]
      by_cases htarget : n = target
      · subst htarget
        rw [pathsWithin_target hmem]
        simp only [if_true, Option.map_some, Option.some.injEq]
        rw [Search.record, Search.leave_enter]
        simp [Search.enter]
      · have hlen := List.length_erase_of_mem hmem
        have hlpos := List.length_pos_of_mem hmem
        have hheads := foldlM_backtrack (g.headsOf n) (s.enter n) fun head hhead found =>
          ih (s := { s.enter n with found }) (hg.head_mem n head hhead) (hspent.enter hmem)
            (by omega)
        rw [if_neg htarget, hheads, pathsWithin_of_ne hmem htarget]
        simp only [Option.map_some, Option.some.injEq]
        rw [Search.leave_enter]
        simp [Search.enter, Function.comp_def]
    · -- both visits are spent, and the state is left as it is
      have hzero := List.count_eq_zero_of_not_mem hmem
      rw [if_pos (by omega), pathsWithin_of_notMem hmem]
      simp

/-! ## The listing of paths -/

/-- **The listed paths are exactly the edge walks that are paths.** In a
graph that was explored to the end, between any two of its nodes, the
paths stand one to one for the edge walks that stop at their first
arrival and meet no node more than twice, in the lexicographic order of
the heads taken. The backtracking search ends on every such graph, with
calls nested no deeper than two for each node and one, and finds the same
list with its path and its counts restored. -/
theorem paths_eq_edge_walks {ε : Type} {heads : N → Except ε (List N)} {room : Nat}
    (hg : explore heads room [g.root] [] = .complete g.adjacency) {start : N}
    (hstart : start ∈ g.nodes) (htarget : target ∈ g.nodes) :
    ∃ (walks : List (List Nat)) (paths : List (List N)),
      g.paths start target = .ok paths ∧
      paths.map some = walks.map (g.follow? start) ∧
      (∀ indices, indices ∈ walks ↔ g.IsEdgePath start target indices) ∧
      walks.Nodup ∧ walks.Pairwise (· < ·) ∧
      ∀ depth, 2 * g.order < depth →
        g.backtrack target depth start {} = some { found := paths } := by
  have hclosed : g.Closed := closed_of_complete hg
  have hsorted := pairwise_edgeWalksWithin g target g.fullAllowance start
  refine ⟨g.edgeWalksWithin target g.fullAllowance start,
    g.pathsWithin target g.fullAllowance start, ?_, map_follow?_edgeWalksWithin.symm, ?_,
    ?_, hsorted, ?_⟩
  · rw [paths, contains_iff.2 hstart, contains_iff.2 htarget]
    rfl
  · intro indices
    rw [mem_edgeWalksWithin, IsEdgePath]
    refine exists_congr fun w => and_congr_right fun hw => and_congr_right fun _ => ?_
    obtain ⟨last, hwalk⟩ := walk_of_follow? hw
    exact count_le_fullAllowance_iff hclosed (mem_nodes_of_walk hclosed hstart hwalk)
  · refine List.Pairwise.imp (fun {a b} hlt => ?_) hsorted
    rintro rfl
    exact List.lt_irrefl a hlt
  · intro depth hdepth
    have hspent : Search.Spends g {} g.fullAllowance := fun x hx =>
      count_fullAllowance hclosed hx
    rw [backtrack_eq hclosed hstart hspent (by rw [length_fullAllowance]; exact hdepth)]
    simp

/-- Two parallel edges to a node with a loop of its own. -/
theorem paths_eq_edge_walks_loop :
    let g : Digraph Nat := ⟨0, [(0, [1, 1]), (1, [1, 2]), (2, [])]⟩
    ∃ (walks : List (List Nat)) (paths : List (List Nat)),
      g.paths 0 2 = .ok paths ∧
      paths.map some = walks.map (g.follow? 0) ∧
      (∀ indices, indices ∈ walks ↔ g.IsEdgePath 0 2 indices) ∧
      walks.Nodup ∧ walks.Pairwise (· < ·) ∧
      ∀ depth, 2 * g.order < depth →
        g.backtrack 2 depth 0 {} = some { found := paths } := by
  intro g
  let heads : Nat → Except Empty (List Nat) := fun n => .ok ([[1, 1], [1, 2]].getD n [])
  have hg : explore heads 3 [g.root] [] = .complete g.adjacency := by
    simp [g, heads, explore, Adjacency.has, Adjacency.fresh]
  exact paths_eq_edge_walks hg (by decide) (by decide)

end SmellCheck.Digraph
