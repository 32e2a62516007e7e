import SmellCheck.Proofs.Digraph.Paths
import Mathlib.Logic.Relation
/-!
# What is reachable

The graph that is explored from a root along a function of heads has
exactly the nodes that are reachable from the root, with the heads that
the function gives them, as soon as there is room for a finite space that
no head leaves (`Enclosure`). The same holds of a walk through a graph,
which is an exploration of its heads: it meets what is reachable from its
start (`mem_walkFrom`).
-/

namespace SmellCheck

open Relation

variable {N ε : Type}

/-- There is a walk to what is reachable. -/
theorem Walk.exists_iff {R : N → N → Prop} {a b : N} :
    (∃ w, Walk R a b w) ↔ ReflTransGen R a b := by
  constructor
  · rintro ⟨w, h⟩
    induction h with
    | single n => exact .refl
    | cons hstep _ ih => exact .head hstep ih
  · intro h
    induction h using ReflTransGen.head_induction_on with
    | refl => exact ⟨[b], .single b⟩
    | head hstep _ ih =>
      obtain ⟨w, hw⟩ := ih
      exact ⟨_, .cons hstep hw⟩

theorem Walk.reflTransGen {R : N → N → Prop} {a b : N} {w : List N} (h : Walk R a b w) :
    ReflTransGen R a b :=
  Walk.exists_iff.1 ⟨w, h⟩

/-- There is a walk without laps to what is reachable. -/
theorem Walk.exists_nodup_of_reflTransGen {R : N → N → Prop} {a b : N}
    (h : ReflTransGen R a b) : ∃ w, Walk R a b w ∧ w.Nodup := by
  obtain ⟨w, hw⟩ := Walk.exists_iff.2 h
  obtain ⟨w', hw', hnodup, -⟩ := hw.exists_nodup
  exact ⟨w', hw', hnodup⟩

variable [DecidableEq N]

/-- **What holds of the waiting nodes and is handed on to heads holds of
everything that is found.** -/
theorem forall_found_of_explore {heads : N → Except ε (List N)} {P : N → Prop}
    (hheads : ∀ n hs, P n → heads n = .ok hs → ∀ h ∈ hs, P h) {room : Nat} {stack : List N}
    {found : Adjacency N} (hfound : ∀ n ∈ found.nodes, P n) (hstack : ∀ n ∈ stack, P n) :
    ∀ n ∈ (explore heads room stack found).found.nodes, P n := by
  fun_induction explore heads room stack found with
  | case1 => exact hfound
  | case2 room found n stack _ ih => exact ih hfound (List.forall_mem_cons.1 hstack).2
  | case3 => exact hfound
  | case4 => exact hfound
  | case5 found n stack _ room hs hok grown ih =>
    obtain ⟨hn, hstack⟩ := List.forall_mem_cons.1 hstack
    refine ih ?_ ?_
    · rw [Adjacency.nodes_append, Adjacency.nodes_singleton]
      exact List.forall_mem_append.2 ⟨hfound, List.forall_mem_singleton.2 hn⟩
    · have hfresh : ∀ h ∈ grown.fresh hs, P h := fun h hh =>
        hheads n hs hn hok h (Adjacency.fresh_subset grown hs hh)
      exact List.forall_mem_append.2 ⟨hfresh, hstack⟩

namespace Digraph

/-! ## Graphs of heads -/

/-- **A finite space around the root that no head leaves**, and room for
all of it. -/
structure Enclosure (heads : N → List N) (room : Nat) (root : N) (space : List N) : Prop where
  root_mem : root ∈ space
  heads_subset : ∀ n ∈ space, heads n ⊆ space
  length_le : space.length ≤ room

namespace Enclosure

variable {heads : N → List N} {room : Nat} {root n k : N} {space : List N}

/-- **A finite space is explored to the end.** -/
theorem complete (hspace : Enclosure heads room root space) :
    explore (fun n => (.ok (heads n) : Except Empty (List N))) room [root] [] =
      .complete (ofHeads heads room root).adjacency := by
  have hne : ∀ all n,
      explore (fun n => (.ok (heads n) : Except Empty (List N))) room [root] [] ≠ .full all n :=
    explore_ne_full space (fun n hn hs hok => Except.ok.inj hok ▸ hspace.heads_subset n hn)
      (Explored.nil [root]) (List.nil_subset _)
      (List.cons_subset.2 ⟨hspace.root_mem, List.nil_subset _⟩)
      (Nat.le_add_right_of_le hspace.length_le)
  cases houtcome : explore (fun n => (.ok (heads n) : Except Empty (List N))) room [root] [] with
  | complete all => simp only [ofHeads, ofExploration, houtcome, Exploration.found]
  | failed all n e => exact e.elim
  | full all n => exact absurd houtcome (hne all n)

theorem closed (hspace : Enclosure heads room root space) : (ofHeads heads room root).Closed :=
  closed_of_complete hspace.complete

/-- Every node has the heads that it was given. -/
theorem headsOf_eq (hspace : Enclosure heads room root space)
    (hn : n ∈ (ofHeads heads room root).nodes) : (ofHeads heads room root).headsOf n = heads n :=
  (Except.ok.inj (heads_eq_ok_of_complete hspace.complete hn)).symm

/-- **The nodes are what is reachable from the root.** -/
theorem mem_nodes (hspace : Enclosure heads room root space) :
    n ∈ (ofHeads heads room root).nodes ↔ ReflTransGen (fun a b => b ∈ heads a) root n := by
  constructor
  · refine forall_found_of_explore (P := ReflTransGen (fun a b => b ∈ heads a) root)
      (fun a hs ha hok b hb => ?_) (fun _ h => absurd h List.not_mem_nil)
      (List.forall_mem_singleton.2 .refl) n
    cases hok
    exact ha.tail hb
  · intro h
    induction h with
    | refl => exact hspace.closed.root_mem
    | @tail a b _ hstep ih =>
      refine hspace.closed.head_mem a b ?_
      rwa [hspace.headsOf_eq ih]

/-- From a node the same is reachable along edges as along heads. -/
theorem reflTransGen_edge (hspace : Enclosure heads room root space)
    (hn : n ∈ (ofHeads heads room root).nodes) :
    ReflTransGen (ofHeads heads room root).Edge n k ↔
      ReflTransGen (fun a b => b ∈ heads a) n k := by
  have hedge : ∀ a ∈ (ofHeads heads room root).nodes, ∀ b,
      (ofHeads heads room root).Edge a b ↔ b ∈ heads a := fun a ha b => by
    rw [Edge, hspace.headsOf_eq ha]
  constructor
  · intro h
    refine ReflTransGen.mono (fun a b hab => ?_) _ _ h
    exact (hedge a (mem_nodes_of_mem_headsOf hab) b).1 hab
  · intro h
    induction h using ReflTransGen.head_induction_on with
    | refl => exact .refl
    | @head a b hstep _ ih =>
      have hab := (hedge a hn b).2 hstep
      exact .head hab (ih (hspace.closed.head_mem a b hab))

end Enclosure

/-! ## Walks through a graph -/

/-- The nodes of a graph in order enclose it. -/
theorem Closed.enclosure {g : Digraph N} (hg : g.Closed) {start : N} (hstart : start ∈ g.nodes) :
    Enclosure g.headsOf g.order start g.nodes where
  root_mem := hstart
  heads_subset n _ h hh := hg.head_mem n h hh
  length_le := Nat.le_of_eq (List.length_map _)

/-- **A walk through a graph meets what is reachable from its start.** -/
theorem mem_walkFrom {g : Digraph N} (hg : g.Closed) {start n : N} (hstart : start ∈ g.nodes) :
    n ∈ g.walkFrom start ↔ ReflTransGen g.Edge start n := by
  rw [walkFrom, if_pos (contains_iff.2 hstart)]
  exact (hg.enclosure hstart).mem_nodes

end Digraph

end SmellCheck
