import SmellCheck.Digraph.Grouping
import SmellCheck.Proofs.Digraph.Backward
import SmellCheck.Proofs.Digraph.Preorder
import SmellCheck.Proofs.Outcome
/-!
# Trees of rules

The rules of a grouper give a node one parent at most, so above a leaf
there is a chain of nodes. The chain ends at a node without a parent, or
runs into a cycle and is never left again. Folding leaves upward records
the nodes of all chains, each once, in the order in which a recursive
search from the leaves meets them (`Climbed`).

If one node without a parent was met, the record is turned round, and
what is below that node is the tree. It has the nodes whose chain ends at
the root, and its edges are the rules (`IsTreeOf`). A leaf whose chain
runs into a cycle is below no root, so the tree leaves it out, and nothing
tells that a leaf is missing.
-/

namespace SmellCheck

open Relation

variable {N : Type}

namespace Digraph

variable [DecidableEq N] {g : Digraph N} {n : N}

theorem heads_eq_ok (hn : n ∈ g.nodes) : g.heads n = .ok (g.headsOf n) := by
  obtain ⟨hs, hlookup⟩ := Adjacency.exists_lookup_of_mem_nodes hn
  rw [headsOf_eq_of_lookup hlookup, heads, heads?, hlookup]

/-- The tails of a node that no other node has as a head more than
once. -/
theorem tailsOf_eq_filter {p : N → Bool}
    (h : ∀ m hs, (m, hs) ∈ g.adjacency → hs.count n = if p m then 1 else 0) :
    g.tailsOf n = g.nodes.filter p := by
  obtain ⟨root, adjacency⟩ := g
  simp only [tailsOf, nodes, Adjacency.nodes] at h ⊢
  induction adjacency with
  | nil => rfl
  | cons entry adjacency ih =>
    obtain ⟨m, hs⟩ := entry
    have hcount := h m hs List.mem_cons_self
    rw [List.count_eq_length_filter] at hcount
    rw [List.flatMap_cons, ih fun m hs hm => h m hs (List.mem_cons_of_mem _ hm), List.map_const',
      hcount, List.map_cons, List.filter_cons]
    cases p m <;> rfl

end Digraph

namespace Grouper

variable {b : Grouper N} {leaf n m p q root : N}

/-! ## Chains of parents -/

/-- The rules make `p` the parent of `n`. -/
def Parent (b : Grouper N) (n p : N) : Prop := b.parent? n = some p

/-- The parent of a node as a list of heads. -/
def upward (b : Grouper N) (n : N) : List N := (b.parent? n).toList

theorem mem_upward : p ∈ b.upward n ↔ b.Parent n p := by
  rw [upward, Option.mem_toList]
  exact Iff.rfl

theorem Parent.unique (h : b.Parent n p) (h' : b.Parent n q) : p = q :=
  Option.some.inj (h.symm.trans h')

/-- A cycle of parents is never left. -/
theorem transGen_of_cycle (hcycle : TransGen b.Parent n n) (h : ReflTransGen b.Parent n m) :
    TransGen b.Parent m m := by
  induction h with
  | refl => exact hcycle
  | tail _ hstep ih =>
    obtain ⟨p, hparent, hback⟩ := TransGen.head'_iff.1 ih
    rw [hparent.unique hstep] at hback
    exact TransGen.tail' hback hstep

/-- A chain that runs into a cycle does not end. -/
theorem not_ends_of_cycle (hreach : ReflTransGen b.Parent n p) (hcycle : TransGen b.Parent p p)
    (hend : ReflTransGen b.Parent n m) : b.parent? m ≠ none := by
  intro hm
  have hunique : Relator.RightUnique b.Parent := fun _ _ _ => Parent.unique
  have hafter : ReflTransGen b.Parent p m := by
    rcases ReflTransGen.total_of_right_unique hunique hreach hend with h | h
    · exact h
    · rcases ReflTransGen.cases_head h with rfl | ⟨q, hparent, -⟩
      · exact .refl
      · exact absurd (hm.symm.trans hparent) nofun
  obtain ⟨q, hparent, -⟩ := TransGen.head'_iff.1 (transGen_of_cycle hcycle hafter)
  exact absurd (hm.symm.trans hparent) nofun

/-- **A chain of finitely many nodes ends or runs into a cycle.** -/
theorem ends_or_cycle (hfinite : {m | ReflTransGen b.Parent n m}.Finite) :
    (∃ m, ReflTransGen b.Parent n m ∧ b.parent? m = none) ∨
      ∃ m, ReflTransGen b.Parent n m ∧ TransGen b.Parent m m := by
  by_contra hneither
  obtain ⟨hends, hcycle⟩ := not_or.1 hneither
  have : Finite {m | ReflTransGen b.Parent n m} := hfinite
  let above : {m | ReflTransGen b.Parent n m} → {m | ReflTransGen b.Parent n m} → Prop :=
    fun p m => TransGen b.Parent m p
  have : IsTrans _ above := ⟨fun _ _ _ h h' => h'.trans h⟩
  have : Std.Irrefl above := ⟨fun m h => hcycle ⟨m, m.2, h⟩⟩
  -- without a cycle one can go up until there is no parent
  refine (Finite.wellFounded_of_trans_of_irrefl above).induction (C := fun _ => False)
    ⟨n, .refl⟩ fun last ih => ?_
  cases hparent : b.parent? last with
  | none => exact hends ⟨last, last.2, hparent⟩
  | some p =>
    have hreach : ReflTransGen b.Parent n p := ReflTransGen.tail last.2 hparent
    exact ih ⟨p, hreach⟩ (TransGen.single hparent)

/-! ## The record of the chains -/

variable {leaves : List N} {found all : Adjacency N}

/-- **What folding leaves upward keeps.** -/
structure Climbed (b : Grouper N) (leaves : List N) (found : Adjacency N) : Prop where
  /-- Every node is recorded once, with its parent, and its parent is
  recorded too. -/
  explored : Explored (fun n => (.ok (b.upward n) : Except Empty (List N))) [] found
  /-- The nodes are in the order of the recursive search. -/
  order : DepthFirst b.upward [] leaves found.nodes

namespace Climbed

theorem nil : Climbed b [] [] :=
  ⟨Explored.nil [], .done []⟩

/-- A recorded node stands with its parent. -/
theorem heads_eq (inv : Climbed b leaves found) {hs : List N} (h : (n, hs) ∈ found) :
    hs = b.upward n :=
  (Except.ok.inj (inv.explored.answered n hs h)).symm

theorem parent_mem (inv : Climbed b leaves found) (hn : n ∈ found.nodes) (hp : b.Parent n p) :
    p ∈ found.nodes := by
  obtain ⟨⟨n, hs⟩, hmem, rfl⟩ := List.mem_map.1 hn
  have hhead : p ∈ hs := inv.heads_eq hmem ▸ mem_upward.2 hp
  exact (inv.explored.closed n hs hmem p hhead).resolve_right List.not_mem_nil

/-- The record may be added to from another leaf. -/
theorem waiting (inv : Climbed b leaves found) (leaf : N) :
    Explored (fun n => (.ok (b.upward n) : Except Empty (List N))) [leaf] found :=
  { inv.explored with
    closed := fun n hs hn k hk => (inv.explored.closed n hs hn k hk).imp_right
      fun hnil => absurd hnil List.not_mem_nil }

/-- **The chains above the leaves are recorded**, and nothing else. -/
theorem mem_nodes (inv : Climbed b leaves found) :
    n ∈ found.nodes ↔ ∃ leaf ∈ leaves, ReflTransGen b.Parent leaf n := by
  constructor
  · intro hn
    obtain ⟨leaf, hleaf, hreach⟩ := inv.order.exists_reflTransGen n hn
    exact ⟨leaf, hleaf, ReflTransGen.mono (fun _ _ => mem_upward.1) _ _ hreach⟩
  · rintro ⟨leaf, hleaf, hreach⟩
    induction hreach with
    | refl => exact inv.order.pending_subset hleaf
    | tail _ hstep ih => exact inv.parent_mem ih hstep

/-- The nodes without a parent are found out. -/
theorem mem_headless (inv : Climbed b leaves found) :
    n ∈ headless found ↔ n ∈ found.nodes ∧ b.parent? n = none := by
  have hnone : ∀ m hs, (m, hs) ∈ found → (hs.isEmpty = true ↔ b.parent? m = none) := by
    intro m hs hm
    rw [inv.heads_eq hm, upward]
    cases b.parent? m <;> simp
  simp only [headless, Adjacency.nodes, List.mem_map, List.mem_filter]
  constructor
  · rintro ⟨⟨m, hs⟩, ⟨hm, hempty⟩, rfl⟩
    exact ⟨⟨_, hm, rfl⟩, (hnone m hs hm).1 hempty⟩
  · rintro ⟨⟨⟨m, hs⟩, hm, rfl⟩, hparent⟩
    exact ⟨_, ⟨hm, (hnone m hs hm).2 hparent⟩, rfl⟩

end Climbed

variable [DecidableEq N] {tree : Digraph N}

/-- A leaf is added by a complete exploration, or there is no room for
what is above it. -/
theorem climb_cases (b : Grouper N) (found : Adjacency N) (leaf : N) :
    (∃ all, explore (fun n => (.ok (b.upward n) : Except Empty (List N))) maxNewNodes [leaf]
        found = .complete all ∧ b.climb found leaf = .ok all) ∨
      ∃ all n, explore (fun n => (.ok (b.upward n) : Except Empty (List N))) maxNewNodes [leaf]
        found = .full all n ∧ b.climb found leaf = .error .tooDeep := by
  cases houtcome : explore (fun n => (.ok (b.upward n) : Except Empty (List N))) maxNewNodes
      [leaf] found with
  | complete all =>
    refine Or.inl ⟨all, rfl, ?_⟩
    simp only [upward] at houtcome
    simp only [climb, houtcome, Exploration.found]
  | failed _ _ e => exact e.elim
  | full all n =>
    refine Or.inr ⟨all, n, rfl, ?_⟩
    simp only [upward] at houtcome
    simp only [climb, houtcome]

theorem climb_eq_ok : b.climb found leaf = .ok all ↔
    explore (fun n => (.ok (b.upward n) : Except Empty (List N))) maxNewNodes [leaf] found =
      .complete all := by
  rcases climb_cases b found leaf with ⟨all', houtcome, hclimb⟩ | ⟨all', n, houtcome, hclimb⟩
  · simp [houtcome, hclimb]
  · simp [houtcome, hclimb]

/-- **Another leaf keeps the record.** -/
theorem Climbed.climb (inv : Climbed b leaves found) (h : b.climb found leaf = .ok all) :
    Climbed b (leaves ++ [leaf]) all := by
  rw [climb_eq_ok] at h
  obtain ⟨order, hnodes, horder⟩ := exists_depthFirst_of_complete h
  refine ⟨explored_of_complete (inv.waiting leaf) h, ?_⟩
  rw [hnodes]
  exact inv.order.append horder

/-- And so do all leaves. -/
theorem Climbed.foldlM {rest : List N} (inv : Climbed b leaves found)
    (h : rest.foldlM b.climb found = .ok all) : Climbed b (leaves ++ rest) all := by
  induction rest generalizing leaves found with
  | nil =>
    cases h
    rwa [List.append_nil]
  | cons leaf rest ih =>
    rw [List.foldlM_cons] at h
    obtain ⟨next, hnext, h⟩ := bind_eq_ok.1 h
    rw [List.append_cons]
    exact ih (inv.climb hnext) h

/-! ## Turning the record round -/

/-- What was recorded, seen downward from one of its nodes. -/
def below (found : Adjacency N) (root : N) : Digraph N :=
  .ofHeads (⟨root, found⟩ : Digraph N).tailsOf found.length root

/-- The tree is what is below the only node without a parent. -/
theorem build_eq_ok : b.build leaves = .ok tree ↔ leaves ≠ [] ∧
    ∃ found root, leaves.foldlM b.climb [] = .ok found ∧ headless found = [root] ∧
      tree = below found root := by
  rw [build]
  cases leaves with
  | nil => simp [throw, throwThe, MonadExceptOf.throw, bind, Except.bind]
  | cons leaf leaves =>
    rw [List.isEmpty_cons, if_neg Bool.false_ne_true]
    refine bind_eq_ok.trans ⟨?_, ?_⟩
    · rintro ⟨found, hfound, htree⟩
      split at htree
      · cases htree
      · rename_i root hroot
        exact ⟨List.cons_ne_nil _ _, found, root, hfound, hroot, (Except.ok.inj htree).symm⟩
      · cases htree
    · rintro ⟨-, found, root, hfound, hroot, rfl⟩
      refine ⟨found, hfound, ?_⟩
      rw [hroot]
      rfl

namespace Climbed

variable (inv : Climbed b leaves found)
include inv

/-- The nodes with a given parent, in the order in which they were met. -/
theorem tailsOf_eq :
    (⟨root, found⟩ : Digraph N).tailsOf n = found.nodes.filter (b.parent? · = some n) := by
  refine Digraph.tailsOf_eq_filter fun m hs hm => ?_
  rw [inv.heads_eq hm, upward]
  cases hparent : b.parent? m with
  | none => simp
  | some p => simp [List.count_singleton]

theorem mem_tailsOf :
    m ∈ (⟨root, found⟩ : Digraph N).tailsOf n ↔ m ∈ found.nodes ∧ b.Parent m n := by
  rw [inv.tailsOf_eq, List.mem_filter, decide_eq_true_iff]
  exact Iff.rfl

variable (hroot : root ∈ found.nodes)
include hroot

/-- No child leaves the record. -/
theorem enclosure :
    Digraph.Enclosure (⟨root, found⟩ : Digraph N).tailsOf found.length root found.nodes where
  root_mem := hroot
  heads_subset _ _ _ hm := (inv.mem_tailsOf.1 hm).1
  length_le := Nat.le_of_eq (List.length_map _)

theorem closed_below : (below found root).Closed :=
  (inv.enclosure hroot).closed

/-- **Below a node are the nodes whose chain passes it.** -/
theorem mem_nodes_below :
    n ∈ (below found root).nodes ↔ n ∈ found.nodes ∧ ReflTransGen b.Parent n root := by
  refine (inv.enclosure hroot).mem_nodes.trans ⟨fun h => ?_, ?_⟩
  · induction h with
    | refl => exact ⟨hroot, .refl⟩
    | tail _ hstep ih =>
      obtain ⟨hmem, hparent⟩ := inv.mem_tailsOf.1 hstep
      exact ⟨hmem, .head hparent ih.2⟩
  · rintro ⟨hn, hreach⟩
    induction hreach using ReflTransGen.head_induction_on with
    | refl => exact .refl
    | head hparent _ ih =>
      exact (ih (inv.parent_mem hn hparent)).tail (inv.mem_tailsOf.2 ⟨hn, hparent⟩)

theorem headsOf_below (hn : n ∈ (below found root).nodes) :
    (below found root).headsOf n = found.nodes.filter (b.parent? · = some n) := by
  rw [← inv.tailsOf_eq]
  exact (inv.enclosure hroot).headsOf_eq hn

/-- An edge leads from a parent to a child. -/
theorem parent_of_edge (h : (below found root).Edge p n) : b.Parent n p := by
  rw [Digraph.Edge, inv.headsOf_below hroot (Digraph.mem_nodes_of_mem_headsOf h)] at h
  simpa [Parent] using (List.mem_filter.1 h).2

/-- **The only tail of a node is its parent**, as every child is met
once. -/
theorem tailsOf_below (hn : n ∈ found.nodes) :
    (below found root).tailsOf n = (below found root).nodes.filter (b.parent? n = some ·) := by
  refine Digraph.tailsOf_eq_filter fun m hs hm => ?_
  have hanswered : (⟨root, found⟩ : Digraph N).tailsOf m = hs :=
    Except.ok.inj ((explored_of_complete (Explored.nil [root])
      (inv.enclosure hroot).complete).answered m hs hm)
  rw [← hanswered, inv.tailsOf_eq, (inv.explored.nodup.filter _).count]
  simp [hn]

end Climbed

/-! ## The tree -/

/-- **A tree of the rules** above leaves, whose chains were met in the
given order. -/
structure IsTreeOf (b : Grouper N) (leaves discovered : List N) (tree : Digraph N) : Prop where
  /-- No rule applies to the root. -/
  root_headless : b.parent? tree.root = none
  nodup : tree.nodes.Nodup
  /-- The nodes are those on the chain of a leaf whose own chain reaches
  the root. -/
  mem_nodes : ∀ n, n ∈ tree.nodes ↔
    (∃ leaf ∈ leaves, ReflTransGen b.Parent leaf n) ∧ ReflTransGen b.Parent n tree.root
  tails_root : tree.tails tree.root = .ok []
  /-- A node other than the root has one tail, which is its parent. -/
  tails : ∀ n ∈ tree.nodes, n ≠ tree.root →
    ∃ p ∈ tree.nodes, b.parent? n = some p ∧ tree.tails n = .ok [p]
  acyclic : ∀ n, ¬ TransGen tree.Edge n n
  /-- The children of a node come in the order in which they were met. -/
  heads : ∀ n ∈ tree.nodes, tree.heads n = .ok (discovered.filter (b.parent? · = some n))

/-- **What is below the end of a chain is a tree of the rules.** -/
theorem Climbed.isTreeOf (inv : Climbed b leaves found) (hroot : root ∈ found.nodes)
    (hnone : b.parent? root = none) : IsTreeOf b leaves found.nodes (below found root) where
  root_headless := hnone
  nodup := (inv.closed_below hroot).nodup
  mem_nodes n := (inv.mem_nodes_below hroot).trans (and_congr_left' inv.mem_nodes)
  tails_root := by
    rw [Digraph.tails_eq_ok (inv.closed_below hroot).root_mem]
    refine congrArg _ ((inv.tailsOf_below hroot hroot).trans (List.filter_eq_nil_iff.2 ?_))
    simp [hnone]
  tails n hn hne := by
    obtain ⟨hfound, hreach⟩ := (inv.mem_nodes_below hroot).1 hn
    obtain ⟨p, hparent, hrest⟩ := (ReflTransGen.cases_head hreach).resolve_left hne
    have hp : p ∈ (below found root).nodes :=
      (inv.mem_nodes_below hroot).2 ⟨inv.parent_mem hfound hparent, hrest⟩
    refine ⟨p, hp, hparent, ?_⟩
    have honce : (below found root).nodes.filter (b.parent? n = some ·) = [p] := by
      have hsame : ∀ m, b.parent? n = some m ↔ m = p := fun m => by
        rw [hparent, Option.some_inj, eq_comm]
      simp only [hsame, List.filter_eq, (inv.closed_below hroot).nodup.count, if_pos hp,
        List.replicate_one]
    rw [Digraph.tails_eq_ok hn, inv.tailsOf_below hroot hfound, honce]
  acyclic n hcycle := by
    have hchain : TransGen b.Parent n n :=
      transGen_swap.1 (TransGen.mono (fun _ _ => inv.parent_of_edge hroot) _ _ hcycle)
    obtain ⟨m, hedge, -⟩ := TransGen.head'_iff.1 hcycle
    have hn := (inv.mem_nodes_below hroot).1 (Digraph.mem_nodes_of_mem_headsOf hedge)
    exact not_ends_of_cycle .refl hchain hn.2 hnone
  heads n hn := by
    rw [Digraph.heads_eq_ok hn, inv.headsOf_below hroot hn]

/-- **Folding leaves gives a tree of the rules.** If it succeeds, its
tree holds what lies on the chain of a leaf and leads to the root; every
node but the root has one tail, its parent; nothing is below itself; and
children stand in the order in which the exploration upward, a recursive
search from the leaves, met them. -/
theorem isTreeOf_of_build (h : b.build leaves = .ok tree) :
    ∃ found, leaves.foldlM b.climb [] = .ok found ∧
      DepthFirst b.upward [] leaves found.nodes ∧ IsTreeOf b leaves found.nodes tree := by
  obtain ⟨-, found, root, hfound, hheadless, rfl⟩ := build_eq_ok.1 h
  have inv : Climbed b leaves found := Climbed.nil.foldlM hfound
  obtain ⟨hroot, hnone⟩ := inv.mem_headless.1 (hheadless ▸ List.mem_singleton_self root)
  exact ⟨found, hfound, inv.order, inv.isTreeOf hroot hnone⟩

/-- Numbers below the number without its last digit. Eight and nine are
the parents of each other. -/
def digitGrouper : Grouper Nat :=
  let b : Grouper Nat := { tag := fun n => if n = 0 then "top" else "digits" }
  let b := b.whenAs "digits" (· == 8) fun _ => 9
  let b := b.whenAs "digits" (· == 9) fun _ => 8
  b.otherwise "digits" (· / 10)

theorem parent?_digitGrouper (n : Nat) : digitGrouper.parent? n =
    if n = 0 then none else some (if n = 8 then 9 else if n = 9 then 8 else n / 10) := by
  by_cases h0 : n = 0
  · rw [h0]
    rfl
  have hgroup : digitGrouper.group (digitGrouper.tag n) =
      ⟨[((· == 8), fun _ => 9), ((· == 9), fun _ => 8)], some (· / 10)⟩ := by
    rw [show digitGrouper.tag n = "digits" from if_neg h0]
    rfl
  rw [parent?, hgroup, if_neg h0]
  by_cases h8 : n = 8
  · simp [h8]
  by_cases h9 : n = 9
  · simp [h9]
  · simp [h8, h9]

/-- A leaf is given twice, one is above another, and one is on a
cycle. -/
theorem build_digitGrouper : digitGrouper.build [112, 11, 9, 112, 12] =
    .ok ⟨0, [(0, [1]), (1, [11, 12]), (11, [112]), (112, []), (12, [])]⟩ := by
  have hfound : [112, 11, 9, 112, 12].foldlM digitGrouper.climb [] =
      .ok [(112, [11]), (11, [1]), (1, [0]), (0, []), (9, [8]), (8, [9]), (12, [1])] := by
    simp [climb, explore, parent?_digitGrouper, Adjacency.has, Adjacency.fresh, maxNewNodes,
      Exploration.found, bind, Except.bind, pure, Except.pure]
  refine build_eq_ok.2 ⟨List.cons_ne_nil _ _, _, 0, hfound, rfl, ?_⟩
  simp [below, Digraph.ofHeads, Digraph.ofExploration, explore, Digraph.tailsOf, Adjacency.has,
    Adjacency.fresh, Exploration.found]

theorem isTreeOf_of_build_digitGrouper :
    ∃ found tree, digitGrouper.build [112, 11, 9, 112, 12] = .ok tree ∧
      [112, 11, 9, 112, 12].foldlM digitGrouper.climb [] = .ok found ∧
      DepthFirst digitGrouper.upward [] [112, 11, 9, 112, 12] found.nodes ∧
      IsTreeOf digitGrouper [112, 11, 9, 112, 12] found.nodes tree := by
  obtain ⟨found, hfound, horder, htree⟩ := isTreeOf_of_build build_digitGrouper
  exact ⟨found, _, build_digitGrouper, hfound, horder, htree⟩

/-! ## Leaves that are lost -/

/-- **A tree keeps the leaves whose chains end, and loses those whose
chains run into a cycle.** Folding succeeds in spite of these, as long as
all chains that end do so at the same node. -/
theorem leaf_mem_nodes_iff_chain_ends (h : b.build leaves = .ok tree) :
    ∀ leaf ∈ leaves,
      (leaf ∈ tree.nodes ↔ ∃ n, ReflTransGen b.Parent leaf n ∧ b.parent? n = none) ∧
      (leaf ∉ tree.nodes ↔ ∃ n, ReflTransGen b.Parent leaf n ∧ TransGen b.Parent n n) := by
  intro leaf hleaf
  obtain ⟨-, found, root, hfound, hheadless, rfl⟩ := build_eq_ok.1 h
  have inv : Climbed b leaves found := Climbed.nil.foldlM hfound
  obtain ⟨hroot, hnone⟩ := inv.mem_headless.1 (hheadless ▸ List.mem_singleton_self root)
  have hmem : ∀ n, ReflTransGen b.Parent leaf n → n ∈ found.nodes := fun n hn =>
    inv.mem_nodes.2 ⟨leaf, hleaf, hn⟩
  have hkept : leaf ∈ (below found root).nodes ↔
      ∃ n, ReflTransGen b.Parent leaf n ∧ b.parent? n = none := by
    rw [inv.mem_nodes_below hroot, and_iff_right (hmem leaf .refl)]
    constructor
    · exact fun hreach => ⟨root, hreach, hnone⟩
    · rintro ⟨n, hreach, hn⟩
      -- the end of the chain is the only node without a parent
      have hend : n ∈ headless found := inv.mem_headless.2 ⟨hmem n hreach, hn⟩
      rw [hheadless, List.mem_singleton] at hend
      exact hend ▸ hreach
  refine ⟨hkept, ?_⟩
  rw [hkept]
  constructor
  · refine (ends_or_cycle ?_).resolve_left
    exact found.nodes.finite_toSet.subset hmem
  · rintro ⟨n, hreach, hcycle⟩ ⟨m, hend, hm⟩
    exact not_ends_of_cycle hreach hcycle hend hm

theorem leaf_mem_nodes_iff_chain_ends_digitGrouper :
    (∃ tree, digitGrouper.build [112, 11, 9, 112, 12] = .ok tree) ∧
      (∃ n, ReflTransGen digitGrouper.Parent 12 n ∧ digitGrouper.parent? n = none) ∧
      ∃ n, ReflTransGen digitGrouper.Parent 9 n ∧ TransGen digitGrouper.Parent n n := by
  have hleaves := leaf_mem_nodes_iff_chain_ends build_digitGrouper
  exact ⟨⟨_, build_digitGrouper⟩, (hleaves 12 (by decide)).1.1 (by decide),
    (hleaves 9 (by decide)).2.1 (by decide)⟩

/-- **A leaf may be lost although folding succeeds.** -/
theorem exists_leaf_notMem_nodes :
    ∃ tree, digitGrouper.build [112, 11, 9, 112, 12] = .ok tree ∧
      ∃ leaf ∈ [112, 11, 9, 112, 12], leaf ∉ tree.nodes :=
  ⟨_, build_digitGrouper, 9, by decide, by decide⟩

end Grouper

end SmellCheck
