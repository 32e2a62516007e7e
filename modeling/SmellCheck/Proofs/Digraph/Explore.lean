import SmellCheck.Digraph.Basic
import Mathlib.Data.List.Nodup
import Mathlib.Data.List.Perm.Subperm
/-!
# What an exploration finds

An exploration keeps three facts from one expansion to the next: no node
is recorded twice, what is recorded of a node is what was answered for
it, and every head of a recorded node is recorded or waits on the stack
(`Explored`). When nothing waits any more the record is closed under
heads. An exploration of a finite space never runs out of room.
-/

namespace SmellCheck

variable {N ε : Type}

namespace Adjacency

@[simp] theorem nodes_append (a b : Adjacency N) :
    (a ++ b : Adjacency N).nodes = a.nodes ++ b.nodes :=
  List.map_append

@[simp] theorem nodes_singleton (n : N) (hs : List N) : Adjacency.nodes [(n, hs)] = [n] := rfl

/-- Nodes that are listed with their heads. -/
theorem nodes_map (heads : N → List N) (nodes : List N) :
    Adjacency.nodes (nodes.map fun n => (n, heads n)) = nodes := by
  rw [Adjacency.nodes, List.map_map]
  exact List.map_id nodes

theorem mem_nodes_of_mem {a : Adjacency N} {n : N} {hs : List N} (h : (n, hs) ∈ a) :
    n ∈ a.nodes :=
  List.mem_map_of_mem h

variable [DecidableEq N]

theorem has_iff_mem_nodes {a : Adjacency N} {n : N} : a.has n = true ↔ n ∈ a.nodes := by
  simp [has, nodes]

theorem mem_fresh {a : Adjacency N} {ns : List N} {n : N} :
    n ∈ a.fresh ns ↔ n ∈ ns ∧ n ∉ a.nodes := by
  rw [fresh, List.mem_filter, Bool.not_eq_true', ← Bool.not_eq_true, has_iff_mem_nodes]

theorem fresh_subset (a : Adjacency N) (ns : List N) : a.fresh ns ⊆ ns :=
  List.filter_subset_self _

/-- What is looked up stands in the record. -/
theorem mem_of_lookup {a : Adjacency N} {n : N} {hs : List N} (h : a.lookup n = some hs) :
    (n, hs) ∈ a := by
  obtain ⟨l₁, l₂, rfl, -⟩ := List.lookup_eq_some_iff.1 h
  simp

/-- A node of the record is looked up. -/
theorem exists_lookup_of_mem_nodes {a : Adjacency N} {n : N} (h : n ∈ a.nodes) :
    ∃ hs, a.lookup n = some hs := by
  obtain ⟨⟨n', hs⟩, hmem, rfl⟩ := List.mem_map.1 h
  by_contra hnone
  have hlookup : a.lookup n' = none := Option.eq_none_iff_forall_ne_some.2 fun hs' hs'' =>
    hnone ⟨hs', hs''⟩
  simpa using List.lookup_eq_none_iff.1 hlookup _ hmem

end Adjacency

/-! ## One expansion -/

/-- **What an exploration keeps**, with the nodes on the stack still to
come. -/
structure Explored (heads : N → Except ε (List N)) (stack : List N) (found : Adjacency N) :
    Prop where
  /-- No node is recorded twice. -/
  nodup : found.nodes.Nodup
  /-- What is recorded of a node was answered for it. -/
  answered : ∀ n hs, (n, hs) ∈ found → heads n = .ok hs
  /-- A head of a recorded node is recorded or waits. -/
  closed : ∀ n hs, (n, hs) ∈ found → ∀ h ∈ hs, h ∈ found.nodes ∨ h ∈ stack

namespace Explored

variable {heads : N → Except ε (List N)} {stack : List N} {found : Adjacency N} {n : N}

/-- Before the first expansion there is nothing to keep. -/
theorem nil (stack : List N) : Explored heads stack [] :=
  ⟨List.nodup_nil, fun _ _ h => absurd h List.not_mem_nil, fun _ _ h => absurd h List.not_mem_nil⟩

/-- A recorded node is passed over. -/
theorem skip (inv : Explored heads (n :: stack) found) (hn : n ∈ found.nodes) :
    Explored heads stack found where
  nodup := inv.nodup
  answered := inv.answered
  closed m hs hm h hh := by
    rcases inv.closed m hs hm h hh with hf | hs
    · exact Or.inl hf
    · rcases List.mem_cons.1 hs with rfl | hs
      · exact Or.inl hn
      · exact Or.inr hs

/-- A new node is recorded, and those of its heads wait that are not. -/
theorem expand [DecidableEq N] {hs : List N} (inv : Explored heads (n :: stack) found)
    (hn : n ∉ found.nodes) (hheads : heads n = .ok hs) :
    Explored heads (Adjacency.fresh (found ++ [(n, hs)]) hs ++ stack) (found ++ [(n, hs)]) where
  nodup := by
    rw [Adjacency.nodes_append, Adjacency.nodes_singleton]
    exact List.nodup_append.2 ⟨inv.nodup, List.nodup_singleton n, by
      rintro a ha b hb rfl
      exact hn (List.mem_singleton.1 hb ▸ ha)⟩
  answered m hs' hm := by
    rcases List.mem_append.1 hm with hm | hm
    · exact inv.answered m hs' hm
    · obtain ⟨rfl, rfl⟩ := Prod.mk.inj (List.mem_singleton.1 hm)
      exact hheads
  closed m hs' hm h hh := by
    by_cases hrecorded : h ∈ Adjacency.nodes (found ++ [(n, hs)])
    · exact Or.inl hrecorded
    refine Or.inr (List.mem_append.2 ?_)
    rcases List.mem_append.1 hm with hm | hm
    · rw [Adjacency.nodes_append, Adjacency.nodes_singleton, List.mem_append, not_or] at hrecorded
      have hw := (inv.closed m hs' hm h hh).resolve_left hrecorded.1
      exact Or.inr (List.mem_of_ne_of_mem (fun hne => hrecorded.2 (List.mem_singleton.2 hne)) hw)
    · obtain ⟨rfl, rfl⟩ := Prod.mk.inj (List.mem_singleton.1 hm)
      exact Or.inl (Adjacency.mem_fresh.2 ⟨hh, hrecorded⟩)

end Explored

/-! ## A whole exploration -/

variable [DecidableEq N] {heads : N → Except ε (List N)}

/-- **A complete exploration is closed under heads**: what it keeps holds
with nothing left on the stack. -/
theorem explored_of_complete {room : Nat} {stack : List N} {found all : Adjacency N}
    (inv : Explored heads stack found) (h : explore heads room stack found = .complete all) :
    Explored heads [] all := by
  fun_induction explore heads room stack found with
  | case1 => cases h; exact inv
  | case2 room found n stack hhas ih =>
    exact ih (inv.skip (Adjacency.has_iff_mem_nodes.1 hhas)) h
  | case3 => cases h
  | case4 => cases h
  | case5 found n stack hhas room hs hheads grown ih =>
    exact ih (inv.expand (fun hn => hhas (Adjacency.has_iff_mem_nodes.2 hn)) hheads) h

/-- A complete exploration holds what it had found and what waited. -/
theorem subset_of_complete {room : Nat} {stack : List N} {found all : Adjacency N}
    (h : explore heads room stack found = .complete all) :
    found ⊆ all ∧ ∀ n ∈ stack, n ∈ all.nodes := by
  fun_induction explore heads room stack found with
  | case1 => cases h; exact ⟨List.Subset.refl _, fun _ hn => absurd hn List.not_mem_nil⟩
  | case2 room found n stack hhas ih =>
    obtain ⟨hsub, hstack⟩ := ih h
    refine ⟨hsub, fun m hm => ?_⟩
    rcases List.mem_cons.1 hm with rfl | hm
    · exact List.map_subset _ hsub (Adjacency.has_iff_mem_nodes.1 hhas)
    · exact hstack m hm
  | case3 => cases h
  | case4 => cases h
  | case5 found n stack hhas room hs hheads grown ih =>
    obtain ⟨hsub, hstack⟩ := ih h
    have hn : (n, hs) ∈ all := hsub (List.mem_append_right _ (List.mem_singleton_self _))
    refine ⟨fun p hp => hsub (List.mem_append_left _ hp), fun m hm => ?_⟩
    rcases List.mem_cons.1 hm with rfl | hm
    · exact Adjacency.mem_nodes_of_mem hn
    · exact hstack m (List.mem_append_right _ hm)

/-- **A finite space is explored without running out of room.** The room
left and the nodes recorded add up to the size of the space, and a node
that waits is one that the record does not have. -/
theorem explore_ne_full (space : List N)
    (hclosed : ∀ n ∈ space, ∀ hs, heads n = .ok hs → hs ⊆ space)
    {room : Nat} {stack : List N} {found : Adjacency N} (inv : Explored heads stack found)
    (hfound : found.nodes ⊆ space) (hstack : stack ⊆ space)
    (hroom : space.length ≤ room + found.length) (all : Adjacency N) (n : N) :
    explore heads room stack found ≠ .full all n := by
  intro h
  fun_induction explore heads room stack found with
  | case1 => cases h
  | case2 room found n stack hhas ih =>
    exact ih (inv.skip (Adjacency.has_iff_mem_nodes.1 hhas)) hfound
      (fun m hm => hstack (List.mem_cons_of_mem _ hm)) hroom h
  | case3 found n stack hhas =>
    -- the record with the waiting node would be larger than the space
    have hnodup : (n :: found.nodes).Nodup :=
      List.nodup_cons.2 ⟨fun hn => hhas (Adjacency.has_iff_mem_nodes.2 hn), inv.nodup⟩
    have hsub : n :: found.nodes ⊆ space :=
      List.cons_subset.2 ⟨hstack List.mem_cons_self, hfound⟩
    have hlen := (hnodup.subperm hsub).length_le
    simp only [List.length_cons, Adjacency.nodes, List.length_map] at hlen
    omega
  | case4 => cases h
  | case5 found n stack hhas room hs hheads grown ih =>
    have hn : n ∈ space := hstack List.mem_cons_self
    refine ih (inv.expand (fun hn => hhas (Adjacency.has_iff_mem_nodes.2 hn)) hheads) ?_ ?_ ?_ h
    · rw [Adjacency.nodes_append, Adjacency.nodes_singleton]
      exact List.append_subset.2 ⟨hfound, List.cons_subset.2 ⟨hn, List.nil_subset _⟩⟩
    · exact List.append_subset.2
        ⟨List.Subset.trans (Adjacency.fresh_subset _ hs) (hclosed n hn hs hheads),
          fun m hm => hstack (List.mem_cons_of_mem _ hm)⟩
    · rw [List.length_append, List.length_singleton]
      omega

/-! ## The graph of a complete exploration -/

namespace Digraph

/-- **A graph in order**: its nodes are listed once, among them the root
and all heads. -/
structure Closed (g : Digraph N) : Prop where
  nodup : g.nodes.Nodup
  root_mem : g.root ∈ g.nodes
  head_mem : ∀ n, ∀ h ∈ g.headsOf n, h ∈ g.nodes

/-- The heads of a node, as they were recorded for it. -/
theorem headsOf_eq_of_lookup {g : Digraph N} {n : N} {hs : List N}
    (h : g.adjacency.lookup n = some hs) : g.headsOf n = hs := by
  rw [headsOf, heads?, h, Option.getD_some]

theorem contains_iff {g : Digraph N} {n : N} : g.contains n = true ↔ n ∈ g.nodes :=
  Adjacency.has_iff_mem_nodes

/-- A node with a head belongs to the graph. -/
theorem mem_nodes_of_mem_headsOf {g : Digraph N} {n h : N} (hh : h ∈ g.headsOf n) :
    n ∈ g.nodes := by
  cases hlookup : g.adjacency.lookup n with
  | none =>
    rw [headsOf, heads?, hlookup] at hh
    exact absurd hh List.not_mem_nil
  | some hs => exact Adjacency.mem_nodes_of_mem (Adjacency.mem_of_lookup hlookup)

variable {room : Nat} {root : N} {all : Adjacency N}

/-- The heads of a node of the graph were answered for it. -/
theorem heads_eq_ok_of_complete (h : explore heads room [root] [] = .complete all) {n : N}
    (hn : n ∈ (⟨root, all⟩ : Digraph N).nodes) :
    heads n = .ok ((⟨root, all⟩ : Digraph N).headsOf n) := by
  have inv := explored_of_complete (Explored.nil [root]) h
  obtain ⟨hs, hlookup⟩ := Adjacency.exists_lookup_of_mem_nodes hn
  rw [headsOf_eq_of_lookup hlookup]
  exact inv.answered n hs (Adjacency.mem_of_lookup hlookup)

/-- **The graph of a complete exploration is in order.** -/
theorem closed_of_complete (h : explore heads room [root] [] = .complete all) :
    (⟨root, all⟩ : Digraph N).Closed := by
  have inv := explored_of_complete (Explored.nil [root]) h
  refine ⟨inv.nodup, (subset_of_complete h).2 root (List.mem_singleton_self root), ?_⟩
  intro n k hk
  obtain ⟨hs, hlookup⟩ := Adjacency.exists_lookup_of_mem_nodes (mem_nodes_of_mem_headsOf hk)
  rw [headsOf_eq_of_lookup hlookup] at hk
  rcases inv.closed n hs (Adjacency.mem_of_lookup hlookup) k hk with hmem | hmem
  · exact hmem
  · exact absurd hmem List.not_mem_nil

end Digraph

end SmellCheck
