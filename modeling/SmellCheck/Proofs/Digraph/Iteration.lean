import SmellCheck.Proofs.Digraph.Grouping
/-!
# Walks that are handed out

A walk hands its nodes to a consumer one at a time, and the consumer may
stop it. The nodes that wait are kept on a stack. A head is left off it
if it was visited before its tail was, but it may wait there more than
once and is then passed over when its turn comes again, since a node
counts as visited only when it is handed out.

What waits is, as in an exploration, what the pending calls of the
recursive search still have to visit (`feed_append`). So the consumer is
handed the nodes in the order of the recursion, up to the one behind
which it stops (`feedFrom_eq`).
-/

namespace SmellCheck

open Relation

variable {N σ : Type}

/-- **What a consumer makes of a row of nodes**, and whether it wants more
of them. It sees no node behind the one at which it stops. -/
def handOver (consume : σ → N → σ × Bool) (s : σ) : List N → σ × Bool
  | [] => (s, true)
  | n :: order =>
    match consume s n with
    | (s, false) => (s, false)
    | (s, true) => handOver consume s order

/-- A row is handed over in parts, the second of them only if more is
wanted. -/
theorem handOver_append (consume : σ → N → σ × Bool) (s : σ) (first last : List N) :
    handOver consume s (first ++ last) =
      match handOver consume s first with
      | (s, false) => (s, false)
      | (s, true) => handOver consume s last := by
  induction first generalizing s with
  | nil => rfl
  | cons n first ih =>
    rw [List.cons_append, handOver, handOver]
    obtain ⟨s', more⟩ := consume s n
    cases more with
    | false => rfl
    | true => exact ih s'

/-- Who collects nodes and never stops gets them all. -/
theorem handOver_collect (seen order : List N) :
    handOver (fun seen n => (seen ++ [n], true)) seen order = (seen ++ order, true) := by
  induction order generalizing seen with
  | nil => rw [handOver, List.append_nil]
  | cons n order ih =>
    simp only [handOver]
    rw [ih, List.append_assoc, List.singleton_append]

/-- Who stops when there is one more than `limit` gets that many. -/
theorem handOver_limit {limit : Nat} {seen : List N} (order : List N)
    (hseen : seen.length ≤ limit) :
    (handOver (fun seen n => (seen ++ [n], decide (seen.length < limit))) seen order).1 =
      seen ++ order.take (limit + 1 - seen.length) := by
  induction order generalizing seen with
  | nil => rw [handOver, List.take_nil, List.append_nil]
  | cons n order ih =>
    have hleft : limit + 1 - seen.length = limit - seen.length + 1 := by omega
    rw [hleft, List.take_succ_cons, handOver]
    by_cases hlt : seen.length < limit
    · have hlength : (seen ++ [n]).length = seen.length + 1 := List.length_append
      have hrest : limit + 1 - (seen ++ [n]).length = limit - seen.length := by omega
      simp only [hlt, decide_true]
      rw [ih (by omega), hrest, List.append_assoc, List.singleton_append]
    · have hnone : limit - seen.length = 0 := by omega
      simp only [hlt, decide_false, hnone, List.take_zero]

namespace Digraph

variable [DecidableEq N] {g : Digraph N} {consume : σ → N → σ × Bool} {room : Nat}
  {stack visited : List N} {n start : N} {s s' : σ}

/-! ## One node -/

/-- A node that was visited is passed over. -/
theorem feed_cons_of_mem (hn : n ∈ visited) :
    g.feed consume room (n :: stack) visited s = g.feed consume room stack visited s := by
  rw [feed.eq_def]
  simp [hn]

/-- A consumer that stops at a node keeps what it has. -/
theorem feed_cons_of_stop (hn : n ∉ visited) (h : consume s n = (s', false)) :
    g.feed consume (room + 1) (n :: stack) visited s = s' := by
  rw [feed.eq_def]
  simp [hn, h]

/-- Behind a node that is handed out its heads wait, without those that
were visited. -/
theorem feed_cons_of_more (hn : n ∉ visited) (h : consume s n = (s', true)) :
    g.feed consume (room + 1) (n :: stack) visited s =
      g.feed consume room ((g.headsOf n).filter (fun h => !(n :: visited).contains h) ++ stack)
        (n :: visited) s' := by
  rw [feed.eq_def]
  simp [hn, h]

/-! ## The whole walk -/

/-- **The stack holds what the recursion has still to visit.** Of what is
pending, those nodes may be left out that were known when it was put on
the stack: the recursion passes over them. -/
theorem feed_append {seen pending order known : List N}
    (h : DepthFirst g.headsOf seen pending order) (hknown : known ⊆ seen)
    (hroom : order.length ≤ room) :
    g.feed consume room (pending.filter (fun m => !known.contains m) ++ stack) seen.reverse s =
      match handOver consume s order with
      | (s, false) => s
      | (s, true) => g.feed consume (room - order.length) stack (seen ++ order).reverse s := by
  -- along the recursion, for every stack behind what is pending
  induction h generalizing known stack room s with
  | done seen => rw [List.append_nil]; rfl
  | @skip seen pending order n hn _ ih =>
    by_cases hleft : n ∈ known
    · rw [List.filter_cons_of_neg (by simpa using hleft)]
      exact ih hknown hroom
    · rw [List.filter_cons_of_pos (by simpa using hleft), List.cons_append,
        feed_cons_of_mem (List.mem_reverse.2 hn)]
      exact ih hknown hroom
  | @visit seen pending below after n hnew _ _ ihBelow ihAfter =>
    have hn : n ∉ seen.reverse := fun hmem => hnew (List.mem_reverse.1 hmem)
    have hkept : n ∉ known := fun hmem => hnew (hknown hmem)
    simp only [List.cons_append, List.length_cons, List.length_append] at hroom ⊢
    obtain ⟨left, rfl⟩ : ∃ left, room = left + 1 := ⟨room - 1, by omega⟩
    rw [List.filter_cons_of_pos (by simpa using hkept), List.cons_append, handOver]
    cases hconsume : consume s n with
    | mk s' more =>
      cases more with
      | false => exact feed_cons_of_stop hn hconsume
      | true =>
        -- what is kept off the stack is what is visited by now
        have hvisited : n :: seen.reverse = (seen ++ [n]).reverse := List.reverse_concat.symm
        have hkeptOff : (seen ++ [n]).reverse ⊆ seen ++ [n] := fun m hm => List.mem_reverse.1 hm
        rw [feed_cons_of_more hn hconsume, hvisited, ihBelow hkeptOff (by omega)]
        simp only [handOver_append]
        cases hbelow : handOver consume s' below with
        | mk s'' more =>
          cases more with
          | false => rfl
          | true =>
            have hafter : known ⊆ seen ++ n :: below := fun m hm =>
              List.mem_append_left _ (hknown hm)
            have hroomLeft : left - below.length - after.length =
                left + 1 - (below.length + after.length + 1) := by omega
            have hseen : seen ++ [n] ++ below = seen ++ n :: below := by
              rw [List.append_assoc, List.singleton_append]
            simp only [hseen]
            rw [ihAfter hafter (by omega), hroomLeft, List.append_assoc, List.cons_append]

section Walk

variable (hg : g.Closed) (hstart : start ∈ g.nodes)

include hg hstart

/-- There is room for the whole walk. -/
theorem length_walkFrom_le : (g.walkFrom start).length ≤ g.order := by
  have hsubset : g.walkFrom start ⊆ g.nodes := by
    intro n hn
    have hreach := (mem_walkFrom hg hstart).1 hn
    rcases ReflTransGen.cases_tail hreach with rfl | ⟨m, -, hedge⟩
    · exact hstart
    · exact hg.head_mem m n hedge
  have hle := ((nodup_walkFrom hg hstart).subperm hsubset).length_le
  rwa [nodes, Adjacency.nodes, List.length_map] at hle

/-- **A consumer is handed the nodes of the walk in order**, up to the one
at which it stops. -/
theorem feedFrom_eq (consume : σ → N → σ × Bool) (s : σ) :
    g.feedFrom start consume s = (handOver consume s (g.walkFrom start)).1 := by
  -- at the start nothing is known, so nothing is left out
  have hfeed : g.feed consume g.order
      ([start].filter (fun m => !([] : List N).contains m) ++ []) [] s = _ :=
    feed_append (depthFirst_walkFrom hg hstart) (List.nil_subset []) (length_walkFrom_le hg hstart)
  rw [feedFrom, if_pos (contains_iff.2 hstart)]
  refine hfeed.trans ?_
  obtain ⟨s', more⟩ := handOver consume s (g.walkFrom start)
  cases more with
  | false => rfl
  | true => exact feed.eq_def ..

theorem walkAtMost_eq_take (limit : Nat) :
    g.walkAtMost start limit = (g.walkFrom start).take limit := by
  cases limit with
  | zero => rw [walkAtMost, List.take_zero]
  | succ limit =>
    rw [walkAtMost, feedFrom_eq hg hstart, handOver_limit _ (Nat.zero_le limit)]
    rfl

end Walk

/-- **The walk from the root goes as the exploration went.** -/
theorem walk_eq_nodes {ε : Type} {heads : N → Except ε (List N)}
    (hg : explore heads room [g.root] [] = .complete g.adjacency) : g.walk = g.nodes := by
  have hclosed : g.Closed := closed_of_complete hg
  obtain ⟨order, hnodes, horder⟩ := exists_depthFirst_of_complete hg
  obtain rfl : g.nodes = order := hnodes
  have hheads : ∀ n ∈ g.nodes, g.headsOf n = givenHeads heads n := fun n hn =>
    (givenHeads_of_ok (heads_eq_ok_of_complete hg hn)).symm
  exact (depthFirst_walkFrom hclosed hclosed.root_mem).unique (horder.congr hheads)

/-- **A walk is the recursive depth-first search.** In a graph that was
explored to the end, the walk from a node meets what is reachable from
it, each node once, in the one order of the recursion along the heads.
A consumer that collects all it is handed gets this order; any consumer
makes of it what it would make of the list, up to where it stops; and one
that stops after `limit` nodes has seen the first `limit`. The walk from
the root is the order in which the nodes were discovered. -/
theorem walkFrom_eq_recursive_preorder {ε : Type} {heads : N → Except ε (List N)}
    (hg : explore heads room [g.root] [] = .complete g.adjacency) :
    (∀ n ∈ g.nodes, g.heads n = .ok (g.headsOf n)) ∧
    (∀ start ∈ g.nodes,
      (∀ n, n ∈ g.walkFrom start ↔ ReflTransGen g.Edge start n) ∧ (g.walkFrom start).Nodup ∧
      (∀ order, DepthFirst g.headsOf [] [start] order ↔ order = g.walkFrom start) ∧
      g.feedFrom start (fun seen n => (seen ++ [n], true)) [] = g.walkFrom start ∧
      (∀ (σ : Type) (consume : σ → N → σ × Bool) (s : σ),
        g.feedFrom start consume s = (handOver consume s (g.walkFrom start)).1) ∧
      ∀ limit, g.walkAtMost start limit = (g.walkFrom start).take limit) ∧
    g.walk = g.nodes := by
  have hclosed : g.Closed := closed_of_complete hg
  refine ⟨fun n hn => heads_eq_ok hn, fun start hstart => ?_, walk_eq_nodes hg⟩
  have hwalk := depthFirst_walkFrom hclosed hstart
  have hfeed : ∀ (σ : Type) (consume : σ → N → σ × Bool) (s : σ),
      g.feedFrom start consume s = (handOver consume s (g.walkFrom start)).1 := fun σ =>
    feedFrom_eq hclosed hstart
  refine ⟨fun n => mem_walkFrom hclosed hstart, nodup_walkFrom hclosed hstart,
    fun order => ⟨fun h => h.unique hwalk, fun h => h ▸ hwalk⟩, ?_, hfeed,
    walkAtMost_eq_take hclosed hstart⟩
  rw [hfeed, handOver_collect, List.nil_append]

/-- Parallel edges, a shared head and a cycle: from node 2 the root waits
behind what it shares with the node. -/
theorem walkFrom_eq_recursive_preorder_shared :
    let g : Digraph Nat := ⟨0, [(0, [1, 2, 1]), (1, [3]), (3, []), (2, [3, 0])]⟩
    (∃ heads : Nat → Except Empty (List Nat),
      explore heads 4 [g.root] [] = .complete g.adjacency) ∧
    g.walkFrom 2 = [2, 3, 0, 1] ∧ DepthFirst g.headsOf [] [2] [2, 3, 0, 1] ∧
    g.walkAtMost 2 3 = [2, 3, 0] ∧ g.walk = [0, 1, 3, 2] := by
  intro g
  let heads : Nat → Except Empty (List Nat) := fun n =>
    .ok ([[1, 2, 1], [3], [3, 0], []].getD n [])
  have hg : explore heads 4 [g.root] [] = .complete g.adjacency := by
    simp [g, heads, explore, Adjacency.has, Adjacency.fresh]
  obtain ⟨-, hfrom, hwalk⟩ := walkFrom_eq_recursive_preorder hg
  obtain ⟨-, -, horder, -, -, hlimit⟩ := hfrom 2 (by decide)
  have htwo : g.walkFrom 2 = [2, 3, 0, 1] := by
    simp [g, walkFrom, contains, ofHeads, ofExploration, order, nodes, Adjacency.nodes, headsOf,
      heads?, explore, Adjacency.has, Adjacency.fresh, Exploration.found, List.lookup_cons]
  refine ⟨⟨heads, hg⟩, htwo, (horder _).2 htwo.symm, ?_, hwalk⟩
  rw [hlimit, htwo]
  rfl

end Digraph

end SmellCheck
