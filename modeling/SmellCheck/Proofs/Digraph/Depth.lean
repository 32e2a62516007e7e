import SmellCheck.Proofs.Digraph.Grouping
import Mathlib.Data.Set.Card
import Mathlib.Order.Interval.Finset.Nat
/-!
# How far rules may climb

Rules may invent parents forever, so folding stops at a leaf that brings
too many new nodes. What is new above a leaf depends on the leaves before
it: only the nodes count that are on no chain of an earlier leaf
(`newOnChain`), which may be infinitely many. An exploration has room for
`maxNewNodes` of them, and it runs out of room exactly if there are more
(`climb_eq_tooDeep_iff`).

The leaf itself is among the nodes that take up room. So one more than
`maxNewNodes` nodes, and with them an error, come about as soon as there
are `maxNewNodes` new parents above the leaf, and not only when there are
more.
-/

namespace SmellCheck

open Relation

variable {N : Type}

/-- An exploration expands no more nodes than it has room for. -/
theorem length_found_explore_le [DecidableEq N] {ε : Type}
    {heads : N → Except ε (List N)} {room : Nat} {stack : List N}
    {found : Adjacency N} :
    (explore heads room stack found).found.length ≤ found.length + room := by
  fun_induction explore heads room stack found with
  | case1 => exact Nat.le_add_right _ _
  | case2 room found n stack hhas ih => exact ih
  | case3 => exact Nat.le_add_right _ _
  | case4 => exact Nat.le_add_right _ _
  | case5 found n stack hhas room hs hheads grown ih =>
    rw [List.length_append, List.length_singleton] at ih
    omega

namespace Grouper

variable {b : Grouper N} {before leaves : List N} {leaf n p : N} {found all : Adjacency N}

/-! ## What is new above a leaf -/

/-- **What is new on the chain of a leaf**, behind earlier leaves: the
nodes on no chain of theirs. -/
def newOnChain (b : Grouper N) (before : List N) (leaf : N) : Set N :=
  {n | ReflTransGen b.Parent leaf n ∧ ∀ earlier ∈ before, ¬ ReflTransGen b.Parent earlier n}

/-- **The new parents above a leaf**: what is new on its chain, but for
the leaf itself. -/
def newParents (b : Grouper N) (before : List N) (leaf : N) : Set N :=
  b.newOnChain before leaf \ {leaf}

/-- Above a leaf that is not new nothing is. -/
theorem newOnChain_eq_empty (hleaf : leaf ∉ b.newOnChain before leaf) :
    b.newOnChain before leaf = ∅ := by
  refine Set.eq_empty_of_forall_notMem fun n hn => hleaf ⟨.refl, fun earlier hearlier hreach => ?_⟩
  exact hn.2 earlier hearlier (hreach.trans hn.1)

/-- **The leaf counts as one of the new nodes.** -/
theorem lt_encard_newOnChain_iff {limit : Nat} (hlimit : 0 < limit) :
    (limit : ℕ∞) < (b.newOnChain before leaf).encard ↔
      (limit : ℕ∞) ≤ (b.newParents before leaf).encard := by
  by_cases hleaf : leaf ∈ b.newOnChain before leaf
  · rw [newParents, ← Set.encard_sdiff_singleton_add_one hleaf]
    exact ENat.natCast_lt_add_one_iff
  · have hempty := newOnChain_eq_empty hleaf
    have hpos : ¬ (limit : ℕ∞) ≤ 0 := by
      rw [nonpos_iff_eq_zero, Nat.cast_eq_zero]
      omega
    simp only [newParents, hempty, Set.empty_sdiff, Set.encard_empty, not_lt_zero, hpos]

/-- What is new is what is not recorded. -/
theorem Climbed.mem_newOnChain (inv : Climbed b before found) :
    n ∈ b.newOnChain before leaf ↔ ReflTransGen b.Parent leaf n ∧ n ∉ found.nodes := by
  rw [inv.mem_nodes]
  refine and_congr_right fun _ => ?_
  rw [not_exists]
  exact forall_congr' fun earlier => not_and.symm

/-! ## One leaf -/

variable [DecidableEq N]

/-- Adding a leaf fails only for want of room. -/
theorem climb_eq_tooDeep : b.climb found leaf = .error .tooDeep ↔
    ∃ all n, explore (fun n => (.ok (b.upward n) : Except Empty (List N))) maxNewNodes [leaf]
      found = .full all n := by
  rcases climb_cases b found leaf with ⟨all, houtcome, hclimb⟩ | ⟨all, n, houtcome, hclimb⟩
  · simp [houtcome, hclimb]
  · simp [houtcome, hclimb]

theorem exists_climb_or_tooDeep (b : Grouper N) (found : Adjacency N) (leaf : N) :
    (∃ all, b.climb found leaf = .ok all) ∨ b.climb found leaf = .error .tooDeep := by
  rcases climb_cases b found leaf with ⟨all, -, hclimb⟩ | ⟨-, -, -, hclimb⟩
  · exact Or.inl ⟨all, hclimb⟩
  · exact Or.inr hclimb

namespace Climbed

variable (inv : Climbed b before found)

include inv

/-- **A leaf that brings as many nodes as there is room for is added.**
What is recorded and what is new on its chain make up a space that no
parent leaves. -/
theorem climb_ne_tooDeep (h : (b.newOnChain before leaf).encard ≤ maxNewNodes) :
    b.climb found leaf ≠ .error .tooDeep := by
  have hfinite : (b.newOnChain before leaf).Finite := Set.finite_of_encard_le_coe h
  have hcard : hfinite.toFinset.card ≤ maxNewNodes := by
    rw [hfinite.encard_eq_coe_toFinset_card] at h
    exact_mod_cast h
  let space := found.nodes ++ hfinite.toFinset.toList
  have hspace : ∀ m, ReflTransGen b.Parent leaf m → m ∈ space := by
    intro m hm
    by_cases hmem : m ∈ found.nodes
    · exact List.mem_append_left _ hmem
    · refine List.mem_append_right _ (Finset.mem_toList.2 (hfinite.mem_toFinset.2 ?_))
      exact inv.mem_newOnChain.2 ⟨hm, hmem⟩
  have hclosed : ∀ m ∈ space, ∀ hs, (.ok (b.upward m) : Except Empty (List N)) = .ok hs →
      hs ⊆ space := by
    intro m hm hs hheads p hp
    obtain rfl := Except.ok.inj hheads
    rw [mem_upward] at hp
    rcases List.mem_append.1 hm with hm | hm
    · exact List.mem_append_left _ (inv.parent_mem hm hp)
    · have hnew := hfinite.mem_toFinset.1 (Finset.mem_toList.1 hm)
      exact hspace p (hnew.1.tail hp)
  have hroom : space.length ≤ maxNewNodes + found.length := by
    rw [List.length_append, Finset.length_toList, Adjacency.nodes, List.length_map]
    omega
  intro hdeep
  obtain ⟨all, n, hfull⟩ := climb_eq_tooDeep.1 hdeep
  exact explore_ne_full space hclosed (inv.waiting leaf) (List.subset_append_left _ _)
    (List.cons_subset.2 ⟨hspace leaf .refl, List.nil_subset _⟩) hroom all n hfull

/-- **A leaf that is added brings no more nodes than there is room for.** -/
theorem encard_le_of_climb (h : b.climb found leaf = .ok all) :
    (b.newOnChain before leaf).encard ≤ maxNewNodes := by
  have hexplore := climb_eq_ok.1 h
  obtain ⟨order, hnodes, -⟩ := exists_depthFirst_of_complete hexplore
  have hlength : order.length ≤ maxNewNodes := by
    have hle := congrArg List.length hnodes
    have hroom : (explore (fun n => (.ok (b.upward n) : Except Empty (List N))) maxNewNodes [leaf]
        found).found.length ≤ found.length + maxNewNodes := length_found_explore_le
    rw [hexplore, Exploration.found] at hroom
    simp only [Adjacency.nodes, List.length_map, List.length_append] at hle
    omega
  -- what is new is recorded, and was not before
  have hsubset : b.newOnChain before leaf ⊆ (order.toFinset : Set N) := by
    intro m hm
    obtain ⟨hreach, hnew⟩ := inv.mem_newOnChain.1 hm
    have hleaf : leaf ∈ before ++ [leaf] := List.mem_append_right _ (List.mem_singleton_self leaf)
    have hall : m ∈ all.nodes := (inv.climb h).mem_nodes.2 ⟨leaf, hleaf, hreach⟩
    rw [hnodes] at hall
    exact List.mem_toFinset.2 ((List.mem_append.1 hall).resolve_left hnew)
  calc (b.newOnChain before leaf).encard
      ≤ (order.toFinset : Set N).encard := Set.encard_le_encard hsubset
    _ = (order.toFinset.card : ℕ∞) := Set.encard_coe_eq_coe_finsetCard _
    _ ≤ (maxNewNodes : ℕ∞) := by exact_mod_cast order.toFinset_card_le.trans hlength

/-- **There is too much above a leaf exactly if more is new on its chain
than there is room for.** -/
theorem climb_eq_tooDeep_iff : b.climb found leaf = .error .tooDeep ↔
    (maxNewNodes : ℕ∞) < (b.newOnChain before leaf).encard := by
  constructor
  · intro hdeep
    exact lt_of_not_ge fun hle => inv.climb_ne_tooDeep hle hdeep
  · intro hlt
    refine (exists_climb_or_tooDeep b found leaf).resolve_left ?_
    rintro ⟨all, hall⟩
    exact absurd (inv.encard_le_of_climb hall) (not_le_of_gt hlt)

/-! ## All leaves -/

/-- **The first leaf with too much above it ends the climb**, with what
the leaves in front of it had brought. -/
theorem foldlM_eq_tooDeep_iff {rest : List N} : rest.foldlM b.climb found = .error .tooDeep ↔
    ∃ first leaf last, rest = first ++ leaf :: last ∧
      (maxNewNodes : ℕ∞) < (b.newOnChain (before ++ first) leaf).encard := by
  -- a leaf that is added counts as an earlier one for those behind it
  induction rest generalizing before found with
  | nil => simp [pure, Except.pure]
  | cons leaf rest ih =>
    rw [List.foldlM_cons]
    rcases exists_climb_or_tooDeep b found leaf with ⟨next, hnext⟩ | hdeep
    · have hroom := inv.encard_le_of_climb hnext
      rw [hnext]
      refine (ih (inv.climb hnext)).trans ⟨?_, ?_⟩
      · rintro ⟨first, leaf', last, rfl, hlt⟩
        rw [← List.append_cons] at hlt
        exact ⟨leaf :: first, leaf', last, rfl, hlt⟩
      · rintro ⟨first, leaf', last, hrest, hlt⟩
        cases first with
        | nil =>
          obtain ⟨rfl, -⟩ := List.cons.inj hrest
          rw [List.append_nil] at hlt
          exact absurd hroom (not_le_of_gt hlt)
        | cons leaf'' first =>
          obtain ⟨rfl, rfl⟩ := List.cons.inj hrest
          rw [List.append_cons] at hlt
          exact ⟨first, leaf', last, rfl, hlt⟩
    · have hlt := inv.climb_eq_tooDeep_iff.1 hdeep
      rw [hdeep]
      refine iff_of_true rfl ⟨[], leaf, rest, rfl, ?_⟩
      rwa [List.append_nil]

end Climbed

/-- Folding fails for too many new nodes only on the way up. -/
theorem build_eq_tooDeep (hne : leaves ≠ []) :
    b.build leaves = .error .tooDeep ↔ leaves.foldlM b.climb [] = .error .tooDeep := by
  obtain ⟨leaf, rest, rfl⟩ := List.exists_cons_of_ne_nil hne
  rw [build, List.isEmpty_cons, if_neg Bool.false_ne_true]
  cases hfound : (leaf :: rest).foldlM b.climb [] with
  | error e => simp [bind, Except.bind]
  | ok found =>
    refine iff_of_false (fun h => ?_) (by simp)
    simp only [pure, Except.pure, bind, Except.bind] at h
    split at h <;> cases h

/-- **Folding fails exactly if a leaf brings more new nodes than there is
room for.** -/
theorem build_eq_tooDeep_iff_newOnChain (hne : leaves ≠ []) : b.build leaves = .error .tooDeep ↔
    ∃ before leaf after, leaves = before ++ leaf :: after ∧
      (maxNewNodes : ℕ∞) < (b.newOnChain before leaf).encard := by
  rw [build_eq_tooDeep hne]
  exact Climbed.nil.foldlM_eq_tooDeep_iff

/-- **Folding fails as soon as there are 1024 new parents above a leaf.**
Whatever the rules are, each leaf makes for at most 1024 expansions on the
way up, and what was recorded is explored to its end on the way down; and
there is an error that speaks of more than 1024 levels exactly if some
leaf has 1024 or more parents above it that are on no chain of an earlier
leaf. -/
theorem build_eq_tooDeep_iff_many_parents (b : Grouper N) (hne : leaves ≠ []) :
    (b.build leaves = .error .tooDeep ↔
      ∃ before leaf after, leaves = before ++ leaf :: after ∧
        1024 ≤ (b.newParents before leaf).encard) ∧
    (∀ name, (TreeError.tooDeep : TreeError N).message name =
      "malformed tree: more than 1024 levels above a leaf") ∧
    (∀ found leaf, (explore (fun n => (.ok (b.upward n) : Except Empty (List N))) maxNewNodes
      [leaf] found).found.length ≤ found.length + 1024) ∧
    ∀ found, leaves.foldlM b.climb [] = .ok found → ∀ root ∈ found.nodes,
      explore (fun n => (.ok ((⟨root, found⟩ : Digraph N).tailsOf n) : Except Empty (List N)))
        found.length [root] [] = .complete (below found root).adjacency := by
  refine ⟨?_, fun name => rfl, fun found leaf => length_found_explore_le,
    fun found hfound root hroot => ((Climbed.nil.foldlM hfound).enclosure hroot).complete⟩
  rw [build_eq_tooDeep_iff_newOnChain hne]
  refine exists_congr fun before => exists_congr fun leaf => exists_congr fun after =>
    and_congr_right fun _ => ?_
  exact lt_encard_newOnChain_iff (Nat.succ_pos 1023)

/-! ## Counting up -/

/-- Numbers below the next one, up to a top. -/
def levelGrouper (top : Nat) : Grouper Nat :=
  let b : Grouper Nat := { tag := fun n => if n < top then "level" else "top" }
  b.otherwise "level" (· + 1)

theorem parent?_levelGrouper (top n : Nat) :
    (levelGrouper top).parent? n = if n < top then some (n + 1) else none := by
  by_cases hn : n < top
  · have htag : (levelGrouper top).tag n = "level" := if_pos hn
    rw [parent?, htag, if_pos hn]
    rfl
  · have htag : (levelGrouper top).tag n = "top" := if_neg hn
    rw [parent?, htag, if_neg hn]
    rfl

theorem reflTransGen_levelGrouper {top n : Nat} :
    ReflTransGen (levelGrouper top).Parent 0 n ↔ n ≤ top := by
  constructor
  · intro h
    induction h with
    | refl => exact Nat.zero_le top
    | @tail m p _ hstep _ =>
      rw [Parent, parent?_levelGrouper] at hstep
      split at hstep
      · cases hstep
        omega
      · cases hstep
  · intro hn
    induction n with
    | zero => exact .refl
    | succ n ih =>
      refine (ih (by omega)).tail ?_
      rw [Parent, parent?_levelGrouper, if_pos (by omega)]

/-- Above zero there are as many parents as the top says. -/
theorem encard_newParents_levelGrouper (top : Nat) :
    ((levelGrouper top).newParents [] 0).encard = top := by
  have hparents : (levelGrouper top).newParents [] 0 = (Finset.Icc 1 top : Finset Nat) := by
    ext n
    simp only [newParents, newOnChain, reflTransGen_levelGrouper, List.not_mem_nil, false_imp_iff,
      implies_true, and_true, Set.mem_sdiff, Set.mem_ofPred_eq, Set.mem_singleton_iff,
      Finset.coe_Icc, Set.mem_Icc]
    omega
  rw [hparents, Set.encard_coe_eq_coe_finsetCard, Nat.card_Icc, Nat.add_sub_cancel]

theorem build_eq_tooDeep_iff_many_parents_levelGrouper :
    ([0] : List Nat) ≠ [] ∧ ((levelGrouper 1024).newParents [] 0).encard = 1024 ∧
      (levelGrouper 1024).build [0] = .error .tooDeep := by
  have hne : ([0] : List Nat) ≠ [] := List.cons_ne_nil 0 []
  have hparents : ((levelGrouper 1024).newParents [] 0).encard = 1024 :=
    encard_newParents_levelGrouper 1024
  exact ⟨hne, hparents, (build_eq_tooDeep_iff_many_parents (levelGrouper 1024) hne).1.2
    ⟨[], 0, [], rfl, hparents.ge⟩⟩

/-- **A leaf with no more than 1024 parents above it may be refused** for
having more than 1024 levels above it. -/
theorem exists_tooDeep_of_encard_le :
    (levelGrouper 1024).build [0] = .error .tooDeep ∧
      ¬ ∃ before leaf after, [0] = before ++ leaf :: after ∧
        1024 < ((levelGrouper 1024).newParents before leaf).encard := by
  have hparents : ((levelGrouper 1024).newParents [] 0).encard = 1024 :=
    encard_newParents_levelGrouper 1024
  constructor
  · refine (build_eq_tooDeep_iff_newOnChain (List.cons_ne_nil 0 [])).2 ⟨[], 0, [], rfl, ?_⟩
    exact (lt_encard_newOnChain_iff (Nat.succ_pos 1023)).2 hparents.ge
  · rintro ⟨before, leaf, after, hsplit, hlt⟩
    cases before with
    | nil =>
      obtain ⟨rfl, -⟩ := List.cons.inj hsplit
      exact absurd hparents.le (not_le_of_gt hlt)
    | cons x before =>
      obtain ⟨-, hnil⟩ := List.cons.inj hsplit
      have hcons : before ++ leaf :: after ≠ [] := by simp
      exact absurd hnil.symm hcons

end Grouper

end SmellCheck
