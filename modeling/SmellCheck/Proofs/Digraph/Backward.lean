import SmellCheck.Proofs.Digraph.Reach
import SmellCheck.Proofs.Digraph.Tails
/-!
# Marking backwards

What reaches one of some given nodes, the seeds, is found backwards from
them: the seeds are marked and wait, and as long as a node waits one is
taken and those of its tails are marked, and wait in turn, that were not
marked before. Three facts carry over from one round to the next
(`Marking.Reached`): a marked node reaches a seed, a node that waits is
marked, and the tails of a marked node that waits no more are marked.

A node waits only once, so there are at most as many rounds as nodes, and
when nothing waits any more the marked nodes are all that reach a seed
(`Marking.run_seeded`).
-/

namespace SmellCheck

open Relation

variable {N : Type} [DecidableEq N]

namespace Digraph

variable {g : Digraph N} {t n : N}

/-- The tails of a node are where its edges come from. -/
theorem mem_tailsOf (hg : g.Closed) : t ∈ g.tailsOf n ↔ g.Edge t n := by
  have hrecord : t ∈ g.tailsOf n ↔ ∃ hs, (t, hs) ∈ g.adjacency ∧ n ∈ hs := by
    simp [tailsOf]
  rw [hrecord]
  constructor
  · rintro ⟨hs, hmem, hn⟩
    obtain ⟨hs', hlookup⟩ :=
      Adjacency.exists_lookup_of_mem_nodes (Adjacency.mem_nodes_of_mem hmem)
    -- a node is recorded once, so these are the heads that are looked up
    have heq : (t, hs) = (t, hs') :=
      List.inj_on_of_nodup_map hg.nodup hmem (Adjacency.mem_of_lookup hlookup) rfl
    rw [Edge, headsOf_eq_of_lookup hlookup, ← (Prod.mk.inj heq).2]
    exact hn
  · intro hedge
    obtain ⟨hs, hlookup⟩ :=
      Adjacency.exists_lookup_of_mem_nodes (mem_nodes_of_mem_headsOf hedge)
    rw [Edge, headsOf_eq_of_lookup hlookup] at hedge
    exact ⟨hs, Adjacency.mem_of_lookup hlookup, hedge⟩

/-- What reaches a node belongs to the graph. -/
theorem mem_nodes_of_reflTransGen (h : ReflTransGen g.Edge t n) (hn : n ∈ g.nodes) :
    t ∈ g.nodes := by
  rcases ReflTransGen.cases_head h with rfl | ⟨_, hedge, -⟩
  · exact hn
  · exact mem_nodes_of_mem_headsOf hedge

end Digraph

/-- The marked nodes, and those of them that wait, the last one first. -/
structure Marking (N : Type) where
  marked : List N
  work : List N

namespace Marking

/-- Marks a node and lets it wait, if it was not marked before. -/
def mark (s : Marking N) (n : N) : Marking N :=
  if n ∈ s.marked then s else ⟨n :: s.marked, n :: s.work⟩

/-- Marks nodes one after the other. -/
def markAll (s : Marking N) (ns : List N) : Marking N :=
  ns.foldl mark s

/-- Takes the nodes that wait one by one and marks their tails, until
none waits; `none` if that takes more than the given rounds. -/
def run (g : Digraph N) : Nat → Marking N → Option (Except (Digraph.QueryError N) (List N))
  | _, ⟨marked, []⟩ => some (.ok marked)
  | 0, ⟨_, _ :: _⟩ => none
  | rounds + 1, ⟨marked, n :: work⟩ =>
    match g.tails n with
    | .error e => some (.error e)
    | .ok ts => run g rounds (markAll ⟨marked, work⟩ ts)

variable {s : Marking N} {ns : List N} {k n : N}

/-! ## Marking nodes -/

theorem mem_marked_mark : k ∈ (s.mark n).marked ↔ k = n ∨ k ∈ s.marked := by
  rw [mark]
  split
  · rename_i hn
    exact (or_iff_right_of_imp fun hk => hk ▸ hn).symm
  · exact List.mem_cons

theorem mem_work_mark : k ∈ (s.mark n).work ↔ (k = n ∧ k ∉ s.marked) ∨ k ∈ s.work := by
  rw [mark]
  split
  · rename_i hn
    exact (or_iff_right fun h => h.2 (h.1 ▸ hn)).symm
  · rename_i hn
    rw [List.mem_cons]
    exact or_congr_left (and_iff_left_of_imp fun hk => hk ▸ hn).symm

theorem mem_marked_markAll : k ∈ (s.markAll ns).marked ↔ k ∈ ns ∨ k ∈ s.marked := by
  induction ns generalizing s with
  | nil => simp [markAll]
  | cons n ns ih =>
    rw [markAll, List.foldl_cons, ← markAll, ih, mem_marked_mark, List.mem_cons]
    tauto

/-- The nodes that are marked for the first time wait. -/
theorem mem_work_markAll :
    k ∈ (s.markAll ns).work ↔ (k ∈ ns ∧ k ∉ s.marked) ∨ k ∈ s.work := by
  induction ns generalizing s with
  | nil => simp [markAll]
  | cons n ns ih =>
    rw [markAll, List.foldl_cons, ← markAll, ih, mem_marked_mark, mem_work_mark, List.mem_cons]
    tauto

theorem nodup_markAll (hs : s.marked.Nodup) : (s.markAll ns).marked.Nodup := by
  induction ns generalizing s with
  | nil => exact hs
  | cons n ns ih =>
    refine ih ?_
    rw [mark]
    split
    · exact hs
    · rename_i hn
      exact List.nodup_cons.2 ⟨hn, hs⟩

/-- As many nodes come to wait as are marked. -/
theorem length_markAll (s : Marking N) (ns : List N) :
    (s.markAll ns).marked.length + s.work.length =
      s.marked.length + (s.markAll ns).work.length := by
  induction ns generalizing s with
  | nil => rfl
  | cons n ns ih =>
    have hrest := ih (s.mark n)
    have hmark : (s.mark n).marked.length + s.work.length =
        s.marked.length + (s.mark n).work.length := by
      rw [mark]
      split
      · rfl
      · simp only [List.length_cons]
        omega
    rw [markAll, List.foldl_cons, ← markAll]
    omega

/-! ## One round -/

/-- **What the rounds keep.** -/
structure Reached (g : Digraph N) (seeds : List N) (s : Marking N) : Prop where
  /-- No node is marked twice. -/
  nodup : s.marked.Nodup
  seeds_subset : seeds ⊆ s.marked
  work_subset : s.work ⊆ s.marked
  /-- A marked node reaches a seed. -/
  sound : ∀ n ∈ s.marked, ∃ t ∈ seeds, ReflTransGen g.Edge n t
  /-- The tails of a marked node that waits no more are marked. -/
  settled : ∀ n ∈ s.marked, n ∉ s.work → ∀ t, g.Edge t n → t ∈ s.marked

variable {g : Digraph N} {seeds marked work : List N}

/-- At first the seeds are marked, and all of them wait. -/
theorem reached_seeded (g : Digraph N) (seeds : List N) :
    Reached g seeds (markAll ⟨[], []⟩ seeds) where
  nodup := nodup_markAll List.nodup_nil
  seeds_subset _ hn := mem_marked_markAll.2 (Or.inl hn)
  work_subset _ hn := by simpa [mem_marked_markAll, mem_work_markAll] using hn
  sound n hn := ⟨n, by simpa [mem_marked_markAll] using hn, .refl⟩
  settled n hn hwork := by
    simp only [mem_marked_markAll, mem_work_markAll, List.not_mem_nil, or_false, not_false_iff,
      and_true] at hn hwork
    exact absurd hn hwork

/-- **A round keeps it**: with its tails marked, the node that was taken
is settled. -/
theorem Reached.round (hg : g.Closed) (inv : Reached g seeds ⟨marked, n :: work⟩) :
    Reached g seeds (markAll ⟨marked, work⟩ (g.tailsOf n)) where
  nodup := nodup_markAll inv.nodup
  seeds_subset _ hk := mem_marked_markAll.2 (Or.inr (inv.seeds_subset hk))
  work_subset k hk := by
    rcases mem_work_markAll.1 hk with ⟨hk, -⟩ | hk
    · exact mem_marked_markAll.2 (Or.inl hk)
    · exact mem_marked_markAll.2 (Or.inr (inv.work_subset (List.mem_cons_of_mem n hk)))
  sound k hk := by
    rcases mem_marked_markAll.1 hk with hk | hk
    · obtain ⟨t, ht, hreach⟩ := inv.sound n (inv.work_subset List.mem_cons_self)
      exact ⟨t, ht, .head ((Digraph.mem_tailsOf hg).1 hk) hreach⟩
    · exact inv.sound k hk
  settled k hk hwork t hedge := by
    rw [mem_work_markAll, not_or, not_and, not_not] at hwork
    have hmarked : k ∈ marked := (mem_marked_markAll.1 hk).elim hwork.1 id
    rw [mem_marked_markAll]
    by_cases hkn : k = n
    · exact Or.inl ((Digraph.mem_tailsOf hg).2 (hkn ▸ hedge))
    · refine Or.inr (inv.settled k hmarked ?_ t hedge)
      exact fun hmem => (List.mem_cons.1 hmem).elim hkn hwork.2

/-- Marked nodes belong to the graph if the seeds do. -/
theorem Reached.marked_subset (hseeds : seeds ⊆ g.nodes) (inv : Reached g seeds s) :
    s.marked ⊆ g.nodes := by
  intro k hk
  obtain ⟨t, ht, hreach⟩ := inv.sound k hk
  exact Digraph.mem_nodes_of_reflTransGen hreach (hseeds ht)

/-- **When nothing waits, all that reaches a seed is marked.** -/
theorem Reached.mem_marked (inv : Reached g seeds ⟨marked, []⟩) :
    k ∈ marked ↔ ∃ t ∈ seeds, ReflTransGen g.Edge k t := by
  constructor
  · exact inv.sound k
  · rintro ⟨t, ht, hreach⟩
    induction hreach using ReflTransGen.head_induction_on with
    | refl => exact inv.seeds_subset ht
    | head hedge _ ih => exact inv.settled _ ih List.not_mem_nil _ hedge

/-! ## All rounds -/

/-- **The rounds end**, no later than the nodes that are not marked yet
and those that wait are used up. -/
theorem Reached.exists_run (hg : g.Closed) (hseeds : seeds ⊆ g.nodes) {rounds : Nat}
    (inv : Reached g seeds s)
    (hrounds : g.order + s.work.length ≤ rounds + s.marked.length) :
    ∃ marked, run g rounds s = some (.ok marked) ∧
      ∀ k, k ∈ marked ↔ ∃ t ∈ seeds, ReflTransGen g.Edge k t := by
  induction rounds generalizing s with
  | zero =>
    -- all nodes are marked, so that none can wait
    have hle : s.marked.length ≤ g.order := by
      simpa [Digraph.nodes, Adjacency.nodes, Digraph.order] using
        (inv.nodup.subperm (inv.marked_subset hseeds)).length_le
    obtain ⟨marked, work⟩ := s
    obtain rfl : work = [] := List.eq_nil_of_length_eq_zero (by dsimp only at *; omega)
    exact ⟨marked, by rw [run], fun k => inv.mem_marked⟩
  | succ rounds ih =>
    obtain ⟨marked, work⟩ := s
    cases work with
    | nil => exact ⟨marked, by rw [run], fun k => inv.mem_marked⟩
    | cons n work =>
      have hn : n ∈ g.nodes := inv.marked_subset hseeds (inv.work_subset List.mem_cons_self)
      rw [run, Digraph.tails_eq_ok hn]
      refine ih (inv.round hg) ?_
      have hlength := length_markAll ⟨marked, work⟩ (g.tailsOf n)
      simp only [List.length_cons] at hrounds hlength
      omega

/-- **From the seeds, the rounds mark what reaches a seed**, if there may
be as many as the graph has nodes. -/
theorem run_seeded (hg : g.Closed) (hseeds : seeds ⊆ g.nodes) {rounds : Nat}
    (hrounds : g.order ≤ rounds) :
    ∃ marked, run g rounds (markAll ⟨[], []⟩ seeds) = some (.ok marked) ∧
      ∀ k, k ∈ marked ↔ ∃ t ∈ seeds, ReflTransGen g.Edge k t := by
  refine (reached_seeded g seeds).exists_run hg hseeds ?_
  have hlength := length_markAll ⟨[], []⟩ seeds
  simp only [List.length_nil] at hlength
  omega

end Marking

end SmellCheck
