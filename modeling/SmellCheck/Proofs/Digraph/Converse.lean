import SmellCheck.Proofs.Digraph.Grouping
/-!
# Heads and tails

A graph is made by an exploration that came to its end, or by folding
leaves, which ends with such an exploration. Everything that waited was
then expanded, so no head lies outside of the graph, and each node stands
in one row. From these two facts follows that heads and tails are the two
ends of the same edges: `a` is among the tails of `b` as often as `b` is
among the heads of `a` (`count_tailsOf`). The table of tails has entries
for the nodes and for no others, since no head is missing among the nodes.
-/

namespace SmellCheck

variable {N : Type} [DecidableEq N]

namespace Adjacency

theorem lookup_eq_none {a : Adjacency N} {n : N} (hn : n ∉ a.nodes) : a.lookup n = none := by
  refine Option.eq_none_iff_forall_ne_some.2 fun hs hlookup => hn ?_
  exact mem_nodes_of_mem (mem_of_lookup hlookup)

/-- **Where each node has one row, its name is collected as often as its
row lists the head.** -/
theorem count_flatMap_rows {a : Adjacency N} (ha : a.nodes.Nodup) (n h : N) :
    (a.flatMap fun (m, hs) => (hs.filter (· == h)).map fun _ => m).count n =
      ((a.lookup n).getD []).count h := by
  induction a with
  | nil => rfl
  | cons row a ih =>
    obtain ⟨m, hs⟩ := row
    obtain ⟨hm, ha⟩ := List.nodup_cons.1 ha
    rw [List.flatMap_cons, List.count_append, ih ha, List.lookup_cons]
    simp only [List.map_const', List.count_replicate, ← List.count_eq_length_filter]
    by_cases hn : n = m
    · subst hn
      have hrest : List.lookup n a = none := lookup_eq_none hm
      simp [hrest]
    · have hbeq : (n == m) = false := by simpa using hn
      simp [hbeq, Ne.symm hn]

end Adjacency

namespace Digraph

variable {g : Digraph N} {a b n : N}

/-! ## How graphs are made -/

/-- **A graph that was made**, in one of the two ways there are. -/
inductive Made : Digraph N → Prop
  /-- Explored to the end from a root, with heads that may be refused. -/
  | explored {ε : Type} {heads : N → Except ε (List N)} {room : Nat} {root : N}
      {all : Adjacency N} :
      explore heads room [root] [] = .complete all → Made ⟨root, all⟩
  /-- Folded out of leaves by the rules of a grouper. -/
  | folded {rules : Grouper N} {leaves : List N} {tree : Digraph N} :
      rules.build leaves = .ok tree → Made tree

/-- Either way it is in order. -/
theorem Made.closed (h : g.Made) : g.Closed := by
  cases h with
  | explored hall => exact closed_of_complete hall
  | @folded rules leaves tree htree =>
    obtain ⟨-, found, root, hfound, hheadless, rfl⟩ := Grouper.build_eq_ok.1 htree
    have inv : Grouper.Climbed rules leaves found := Grouper.Climbed.nil.foldlM hfound
    have hroot := (inv.mem_headless.1 (hheadless ▸ List.mem_singleton_self root)).1
    exact inv.closed_below hroot

/-! ## The two ends of the edges -/

/-- **Heads and tails count the same edges.** -/
theorem count_tailsOf (hg : g.nodes.Nodup) : (g.tailsOf b).count a = (g.headsOf a).count b :=
  Adjacency.count_flatMap_rows hg a b

/-- Rows come in the order of discovery. -/
theorem pairwise_idxOf_nodes (hg : g.nodes.Nodup) :
    g.nodes.Pairwise fun s t => g.nodes.idxOf s ≤ g.nodes.idxOf t := by
  rw [List.pairwise_iff_getElem]
  intro i j hi hj hij
  rw [hg.idxOf_getElem i hi, hg.idxOf_getElem j hj]
  exact Nat.le_of_lt hij

/-- **Tails come in the order of discovery.** All tails that a row gives
are its node. -/
theorem pairwise_idxOf_tailsOf (hg : g.nodes.Nodup) :
    (g.tailsOf b).Pairwise fun s t => g.nodes.idxOf s ≤ g.nodes.idxOf t := by
  have hnodes : (g.adjacency.map (·.1)).Pairwise fun s t => g.nodes.idxOf s ≤ g.nodes.idxOf t :=
    pairwise_idxOf_nodes hg
  rw [tailsOf, List.pairwise_flatMap]
  refine ⟨fun row _ => ?_, (List.pairwise_map.1 hnodes).imp fun {r r'} hle s hs t ht => ?_⟩
  · obtain ⟨m, hs⟩ := row
    simp only [List.map_const', List.pairwise_replicate]
    exact Or.inr (Nat.le_refl _)
  · obtain ⟨-, -, rfl⟩ := List.mem_map.1 hs
    obtain ⟨-, -, rfl⟩ := List.mem_map.1 ht
    exact hle

/-- What is outside of a graph in order has no tails. -/
theorem tailsOf_eq_nil (hg : g.Closed) (hn : n ∉ g.nodes) : g.tailsOf n = [] := by
  refine List.eq_nil_iff_forall_not_mem.2 fun t ht => hn ?_
  exact hg.head_mem t n ((mem_tailsOf hg).1 ht)

/-! ## Unknown nodes -/

/-- The question has no answer because a node is not known. -/
def Unknown {α : Type} (answer : Except (QueryError N) α) : Prop :=
  ∃ query, answer = .error (.unknownNode query)

omit [DecidableEq N] in
theorem not_unknown_ok {α : Type} (answer : α) :
    ¬ Unknown (N := N) (.ok answer) := by
  rintro ⟨query, h⟩
  cases h

theorem unknown_heads_iff : Unknown (g.heads n) ↔ n ∉ g.nodes := by
  constructor
  · intro h hn
    rw [heads_eq_ok hn] at h
    exact not_unknown_ok _ h
  · intro hn
    exact ⟨.heads n, by rw [heads, heads?, Adjacency.lookup_eq_none hn]⟩

theorem outDegree_eq_ok (hn : n ∈ g.nodes) : g.outDegree n = .ok (g.headsOf n).length := by
  obtain ⟨hs, hlookup⟩ := Adjacency.exists_lookup_of_mem_nodes hn
  rw [headsOf_eq_of_lookup hlookup, outDegree, heads?, hlookup]

theorem unknown_outDegree_iff : Unknown (g.outDegree n) ↔ n ∉ g.nodes := by
  constructor
  · intro h hn
    rw [outDegree_eq_ok hn] at h
    exact not_unknown_ok _ h
  · intro hn
    exact ⟨.outDegree n, by rw [outDegree, heads?, Adjacency.lookup_eq_none hn]⟩

/-- The index of a head may be out of range, but then the node is known. -/
theorem unknown_headAt_iff {index : Int} : Unknown (g.headAt n index) ↔ n ∉ g.nodes := by
  constructor
  · rintro ⟨query, h⟩ hn
    obtain ⟨hs, hlookup⟩ := Adjacency.exists_lookup_of_mem_nodes hn
    simp only [headAt, heads?, hlookup] at h
    generalize (if index < 0 then none else hs[index.toNat]?) = head at h
    cases head <;> cases h
  · intro hn
    exact ⟨.headAt index n, by rw [headAt, heads?, Adjacency.lookup_eq_none hn]⟩

/-- **The tails of exactly the nodes are known**: no head outside of the
graph has made an entry in the table. -/
theorem unknown_tails_iff (hg : g.Closed) : Unknown (g.tails n) ↔ n ∉ g.nodes := by
  constructor
  · intro h hn
    rw [tails_eq_ok hn] at h
    exact not_unknown_ok _ h
  · intro hn
    exact ⟨.tails n, tails_eq_error hn (tailsOf_eq_nil hg hn)⟩

/-- **Heads and tails are converse.** In a graph that was made in either
way, `a` is among the tails of `b` as often as `b` is among the heads of
`a`; every head and every tail is a node, and tails come in the order in
which they were discovered; and the questions about a node fail for not
knowing it exactly if it is none. -/
theorem heads_tails_converse (hg : g.Made) :
    (∀ a ∈ g.nodes, ∀ b ∈ g.nodes, ∃ hs ts, g.heads a = .ok hs ∧ g.outDegree a = .ok hs.length ∧
      g.tails b = .ok ts ∧ ts.count a = hs.count b) ∧
    (∀ n hs, g.heads n = .ok hs → ∀ h ∈ hs, h ∈ g.nodes) ∧
    (∀ n ts, g.tails n = .ok ts → (∀ t ∈ ts, t ∈ g.nodes) ∧
      ts.Pairwise fun s t => g.nodes.idxOf s ≤ g.nodes.idxOf t) ∧
    ∀ n, (Unknown (g.heads n) ↔ n ∉ g.nodes) ∧ (Unknown (g.tails n) ↔ n ∉ g.nodes) ∧
      (Unknown (g.outDegree n) ↔ n ∉ g.nodes) ∧
      ∀ index, Unknown (g.headAt n index) ↔ n ∉ g.nodes := by
  have hclosed : g.Closed := hg.closed
  refine ⟨fun a ha b hb => ⟨_, _, heads_eq_ok ha, outDegree_eq_ok ha, tails_eq_ok hb,
    count_tailsOf hclosed.nodup⟩, fun n hs hheads h hh => ?_, fun n ts htails => ?_, fun n =>
    ⟨unknown_heads_iff, unknown_tails_iff hclosed, unknown_outDegree_iff,
      fun index => unknown_headAt_iff⟩⟩
  · have hn : n ∈ g.nodes := by
      by_contra hn
      rw [heads, heads?, Adjacency.lookup_eq_none hn] at hheads
      cases hheads
    rw [heads_eq_ok hn] at hheads
    cases hheads
    exact hclosed.head_mem n h hh
  · have hn : n ∈ g.nodes := by
      by_contra hn
      rw [tails_eq_error hn (tailsOf_eq_nil hclosed hn)] at htails
      cases htails
    rw [tails_eq_ok hn] at htails
    cases htails
    refine ⟨fun t ht => ?_, pairwise_idxOf_tailsOf hclosed.nodup⟩
    exact mem_nodes_of_mem_headsOf ((mem_tailsOf hclosed).1 ht)

/-- Parallel edges and loops, and a tree that lost one of its leaves, whose
tails it does not know. -/
theorem heads_tails_converse_loops :
    let g : Digraph Nat := ⟨0, [(0, [1, 1, 0]), (1, [1, 0])]⟩
    let tree : Digraph Nat := ⟨0, [(0, [1]), (1, [11, 12]), (11, [112]), (112, []), (12, [])]⟩
    g.Made ∧ tree.Made ∧ g.heads 0 = .ok [1, 1, 0] ∧
      (∃ ts, g.tails 1 = .ok ts ∧ ts.count 0 = 2) ∧ Unknown (tree.tails 9) := by
  intro g tree
  let heads : Nat → Except Empty (List Nat) := fun n => .ok ([[1, 1, 0], [1, 0]].getD n [])
  have hexplore : explore heads 2 [0] [] = .complete g.adjacency := by
    simp [g, heads, explore, Adjacency.has, Adjacency.fresh]
  have hg : g.Made := .explored hexplore
  have htree : tree.Made := .folded Grouper.build_digitGrouper
  obtain ⟨hs, ts, hheads, -, htails, hcount⟩ :=
    (heads_tails_converse hg).1 0 (by decide) 1 (by decide)
  have hzero : g.heads 0 = .ok [1, 1, 0] := rfl
  obtain rfl : hs = [1, 1, 0] := Except.ok.inj (hheads.symm.trans hzero)
  exact ⟨hg, htree, hzero, ⟨ts, htails, hcount⟩,
    ((heads_tails_converse htree).2.2.2 9).2.1.2 (by decide)⟩

end Digraph

end SmellCheck
