import SmellCheck.Proofs.Digraph.Grouping
import SmellCheck.Proofs.FirstOccurrences
/-!
# Leaves with known chains

Where the chains above the leaves are known and end at one root, folding
succeeds, if no chain is too long, and the tree can be read off the
chains. They are written one behind the other, in the order of the
leaves, and of each node the first occurrence counts
(`exists_build_of_chains`).
-/

namespace SmellCheck

open Relation

variable {N : Type}

/-- A search from one new node. -/
theorem DepthFirst.single {heads : N → List N} {seen below : List N} {n : N} (hn : n ∉ seen)
    (h : DepthFirst heads (seen ++ [n]) (heads n) below) :
    DepthFirst heads seen [n] (n :: below) := by
  have hvisit := DepthFirst.visit hn h (.done _)
  rwa [List.append_nil] at hvisit

namespace Grouper

variable {b : Grouper N} {n root : N} {c seen : List N}

/-! ## One chain -/

/-- A chain that ends meets no node twice. -/
theorem nodup_of_walk (h : Walk b.Parent n root c) (hroot : b.parent? root = none) : c.Nodup := by
  induction h with
  | single n => exact List.nodup_singleton n
  | @cons n next root c hparent hw ih =>
    refine List.nodup_cons.2 ⟨fun hmem => ?_, ih hroot⟩
    have hback : ReflTransGen b.Parent next n :=
      hw.forall_of_forall_step .refl (fun _ _ hx hstep => hx.tail hstep) n hmem
    exact not_ends_of_cycle .refl (TransGen.head' hparent hback) (.head hparent hw.reflTransGen)
      hroot

/-- The nodes on a chain but the last have a parent. -/
theorem eq_of_mem_walk (h : Walk b.Parent n root c) {m : N} (hm : m ∈ c)
    (hnone : b.parent? m = none) : m = root := by
  induction h with
  | single n => exact List.mem_singleton.1 hm
  | cons hparent _ ih =>
    rcases List.mem_cons.1 hm with rfl | hm
    · rw [Parent, hnone] at hparent
      cases hparent
    · exact ih hm

variable [DecidableEq N]

/-- **What is new on a chain**, if with a node its parent is known: the
nodes that are not known. While the chain is followed its own nodes are
seen too, but it does not come back to them. -/
theorem depthFirst_of_walk (h : Walk b.Parent n root c) (hroot : b.parent? root = none)
    {known seen : List N} (hclosed : ∀ m ∈ known, ∀ p, b.Parent m p → p ∈ known)
    (hagree : ∀ m ∈ c, m ∈ seen ↔ m ∈ known) :
    DepthFirst b.upward seen [n] (c.filter (· ∉ known)) := by
  induction h generalizing seen with
  | single n =>
    have hn := hagree n List.mem_cons_self
    by_cases hknown : n ∈ known
    · rw [List.filter_singleton, decide_eq_false (not_not.2 hknown), cond_false]
      exact .skip (hn.2 hknown) (.done _)
    · rw [List.filter_singleton, decide_eq_true hknown, cond_true]
      refine .single (mt hn.1 hknown) ?_
      rw [upward, hroot]
      exact .done _
  | @cons n next root c hparent hw ih =>
    obtain ⟨hn, hrest⟩ := List.forall_mem_cons.1 hagree
    by_cases hknown : n ∈ known
    · -- with the node the rest of its chain is known
      have hall : ∀ m ∈ n :: c, m ∈ known :=
        (Walk.cons hparent hw).forall_of_forall_step hknown fun m p hm => hclosed m hm p
      rw [List.filter_eq_nil_iff.2 fun m hm => by simpa using hall m hm]
      exact .skip (hn.2 hknown) (.done _)
    · have hfresh : n ∉ c := (List.nodup_cons.1 (nodup_of_walk (.cons hparent hw) hroot)).1
      have hbelow : DepthFirst b.upward (seen ++ [n]) [next] (c.filter (· ∉ known)) := by
        refine ih hroot fun m hm => ?_
        have hne : m ≠ n := fun heq => hfresh (heq ▸ hm)
        rw [List.mem_append, List.mem_singleton, or_iff_left hne, hrest m hm]
      rw [List.filter_cons, decide_eq_true hknown, if_pos rfl]
      refine .single (mt hn.1 hknown) ?_
      rw [upward, hparent]
      exact hbelow

/-! ## All leaves -/

variable {leaves : List N} {found : Adjacency N} {leaf : N}

/-- A leaf is added if not too much is new above it. -/
theorem climb_of_depthFirst {order : List N}
    (h : DepthFirst b.upward found.nodes [leaf] order) (hroom : order.length ≤ maxNewNodes) :
    b.climb found leaf = .ok (found ++ order.map fun n => (n, b.upward n)) := by
  let heads : N → Except Empty (List N) := fun n => .ok (b.upward n)
  have hsearch : DepthFirst (givenHeads heads) found.nodes [leaf] order := h
  have houtcome : explore heads maxNewNodes ([leaf] ++ []) found = _ :=
    explore_append hsearch rfl hroom
  rw [Exploration.ofOrder_of_forall_ok fun n _ => ⟨b.upward n, rfl⟩] at houtcome
  rw [climb_eq_ok]
  exact houtcome.trans (explore.eq_def ..)

/-- **A leaf with a known chain is added**, and the record stays that of
the first occurrences on the chains. -/
theorem exists_climb_of_walk {chain : N → List N} (inv : Climbed b leaves found)
    (hnodes : found.nodes = (leaves.flatMap chain).eraseDups)
    (hchain : Walk b.Parent leaf root (chain leaf)) (hroot : b.parent? root = none)
    (hlength : (chain leaf).length ≤ maxNewNodes) :
    ∃ next, b.climb found leaf = .ok next ∧
      next.nodes = ((leaves ++ [leaf]).flatMap chain).eraseDups := by
  have hnew : DepthFirst b.upward found.nodes [leaf] ((chain leaf).filter (· ∉ found.nodes)) :=
    depthFirst_of_walk hchain hroot (fun _ hm _ => inv.parent_mem hm) fun _ _ => Iff.rfl
  refine ⟨_, climb_of_depthFirst hnew ((List.length_filter_le _ _).trans hlength), ?_⟩
  rw [Adjacency.nodes_append, hnodes, List.flatMap_append, List.flatMap_singleton,
    eraseDups_append_eq, eraseDups_of_nodup (nodup_of_walk hchain hroot), Adjacency.nodes_map]
  refine congrArg _ (List.filter_congr fun m _ => ?_)
  rw [Bool.eq_iff_iff]
  simp

/-- So are all leaves. -/
theorem exists_foldlM_of_chains {chain : N → List N} {rest : List N} (inv : Climbed b leaves found)
    (hnodes : found.nodes = (leaves.flatMap chain).eraseDups) (hroot : b.parent? root = none)
    (hchain : ∀ leaf ∈ rest, Walk b.Parent leaf root (chain leaf) ∧
      (chain leaf).length ≤ maxNewNodes) :
    ∃ all, rest.foldlM b.climb found = .ok all ∧ Climbed b (leaves ++ rest) all ∧
      all.nodes = ((leaves ++ rest).flatMap chain).eraseDups := by
  induction rest generalizing leaves found with
  | nil => exact ⟨found, rfl, by rwa [List.append_nil], by rwa [List.append_nil]⟩
  | cons leaf rest ih =>
    obtain ⟨⟨hwalk, hlength⟩, hrest⟩ := List.forall_mem_cons.1 hchain
    obtain ⟨next, hclimb, hnext⟩ := exists_climb_of_walk inv hnodes hwalk hroot hlength
    obtain ⟨all, hfold, hall⟩ := ih (inv.climb hclimb) hnext hrest
    rw [← List.append_cons] at hall
    exact ⟨all, bind_eq_ok.2 ⟨next, hclimb, hfold⟩, hall⟩

/-- **Leaves whose chains end at one root fold into a tree**, in which the
nodes are those on the chains and the children of a node stand as they
occur first on the chains. -/
theorem exists_build_of_chains {chain : N → List N} (hne : leaves ≠ [])
    (hroot : b.parent? root = none)
    (hchain : ∀ leaf ∈ leaves, Walk b.Parent leaf root (chain leaf) ∧
      (chain leaf).length ≤ maxNewNodes) :
    ∃ tree, b.build leaves = .ok tree ∧ tree.root = root ∧ tree.nodes.Nodup ∧
      (∀ n, n ∈ tree.nodes ↔ n ∈ leaves.flatMap chain) ∧
      ∀ n ∈ tree.nodes, tree.heads n =
        .ok ((leaves.flatMap chain).filter (b.parent? · = some n)).eraseDups := by
  obtain ⟨found, hfound, inv, hnodes⟩ := exists_foldlM_of_chains Climbed.nil rfl hroot hchain
  rw [List.nil_append] at inv hnodes
  have hmem : ∀ n, n ∈ found.nodes ↔ n ∈ leaves.flatMap chain := fun n => by
    rw [hnodes, List.mem_eraseDups]
  have hreach : ∀ n ∈ found.nodes, ReflTransGen b.Parent n root := by
    intro n hn
    obtain ⟨leaf, hleaf, hn⟩ := List.mem_flatMap.1 ((hmem n).1 hn)
    -- from each of its nodes the chain goes on to the root
    obtain ⟨u, v, hsplit⟩ := List.append_of_mem hn
    exact (hsplit ▸ (hchain leaf hleaf).1).split.2.reflTransGen
  have hend : root ∈ found.nodes := by
    obtain ⟨leaf, hleaf⟩ := List.exists_mem_of_ne_nil leaves hne
    exact (hmem root).2 (List.mem_flatMap.2 ⟨leaf, hleaf, (hchain leaf hleaf).1.last_mem⟩)
  have hheadless : headless found = [root] := by
    have hnodup : (headless found).Nodup :=
      inv.explored.nodup.sublist (List.filter_sublist.map _)
    refine eq_singleton_of_nodup hnodup fun n => ?_
    rw [inv.mem_headless]
    constructor
    · rintro ⟨hn, hnone⟩
      obtain ⟨leaf, hleaf, hn⟩ := List.mem_flatMap.1 ((hmem n).1 hn)
      exact eq_of_mem_walk (hchain leaf hleaf).1 hn hnone
    · rintro rfl
      exact ⟨hend, hroot⟩
  have htree := inv.isTreeOf hend hroot
  refine ⟨below found root, build_eq_ok.2 ⟨hne, found, root, hfound, hheadless, rfl⟩, rfl,
    htree.nodup, fun n => ?_, fun n hn => ?_⟩
  · rw [inv.mem_nodes_below hend, ← hmem, and_iff_left_of_imp (hreach n)]
  · rw [htree.heads n hn, hnodes, filter_eraseDups]

end Grouper

end SmellCheck
