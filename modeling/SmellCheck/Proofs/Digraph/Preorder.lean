import SmellCheck.Proofs.Digraph.Reach
import Mathlib.Data.Set.Finite.Basic
/-!
# The order of an exploration

An exploration keeps the nodes that wait on a stack, where a node may
wait more than once: heads that were found before are not put there, but
a node that is found while it waits is only dropped when its turn comes.
Even so it asks for heads in the order of the recursive depth-first search
(`DepthFirst`): what waits on the stack is what the pending calls of the
recursion still have to visit. The recursion gives one order, whether or
not heads are refused; the exploration goes through this order and stops
at the first node whose heads it does not get (`Exploration.ofOrder`).
-/

namespace SmellCheck

open Relation

variable {N ε : Type}

/-- **The recursive depth-first search.** Below the pending nodes, and
with those in `seen` visited before, it visits `order`: a pending node
that was seen is passed over, and a new one is followed by what is new
below its heads and then by what is new below the pending nodes after
it. -/
inductive DepthFirst (heads : N → List N) : (seen pending order : List N) → Prop
  | done (seen : List N) : DepthFirst heads seen [] []
  | skip {seen pending order : List N} {n : N} : n ∈ seen →
      DepthFirst heads seen pending order → DepthFirst heads seen (n :: pending) order
  | visit {seen pending below after : List N} {n : N} : n ∉ seen →
      DepthFirst heads (seen ++ [n]) (heads n) below →
      DepthFirst heads (seen ++ n :: below) pending after →
      DepthFirst heads seen (n :: pending) (n :: below ++ after)

namespace DepthFirst

variable {heads : N → List N} {seen pending rest order order' : List N}

/-- There is one order only. -/
theorem unique (h : DepthFirst heads seen pending order)
    (h' : DepthFirst heads seen pending order') : order = order' := by
  induction h generalizing order' with
  | done => cases h'; rfl
  | skip hn _ ih =>
    cases h' with
    | skip _ h' => exact ih h'
    | visit hnew _ _ => exact absurd hn hnew
  | visit hnew _ _ ihBelow ihAfter =>
    cases h' with
    | skip hn _ => exact absurd hn hnew
    | visit _ hbelow hafter =>
      obtain rfl := ihBelow hbelow
      rw [ihAfter hafter]

/-- Only the heads of what is visited matter. -/
theorem congr {heads' : N → List N} (h : DepthFirst heads seen pending order)
    (hheads : ∀ n ∈ order, heads' n = heads n) : DepthFirst heads' seen pending order := by
  induction h with
  | done seen => exact .done seen
  | skip hn _ ih => exact .skip hn (ih hheads)
  | @visit seen pending below after n hnew _ _ ihBelow ihAfter =>
    simp only [List.cons_append, List.forall_mem_cons, List.forall_mem_append] at hheads
    obtain ⟨hn, hbelow, hafter⟩ := hheads
    exact .visit hnew (hn ▸ ihBelow hbelow) (ihAfter hafter)

/-- The pending nodes are visited one part after the other. -/
theorem exists_append (h : DepthFirst heads seen (pending ++ rest) order) :
    ∃ first last, order = first ++ last ∧ DepthFirst heads seen pending first ∧
      DepthFirst heads (seen ++ first) rest last := by
  induction pending generalizing seen order with
  | nil => exact ⟨[], order, rfl, .done seen, by rwa [List.append_nil]⟩
  | cons n pending ih =>
    cases h with
    | skip hn h =>
      obtain ⟨first, last, rfl, hfirst, hlast⟩ := ih h
      exact ⟨first, last, rfl, .skip hn hfirst, hlast⟩
    | @visit _ _ below after _ hnew hbelow hafter =>
      obtain ⟨first, last, rfl, hfirst, hlast⟩ := ih hafter
      refine ⟨n :: below ++ first, last, (List.append_assoc _ _ _).symm,
        .visit hnew hbelow hfirst, ?_⟩
      rwa [List.append_assoc] at hlast

/-- And parts that are visited one after the other make up one search. -/
theorem append {first last : List N} (h : DepthFirst heads seen pending first)
    (h' : DepthFirst heads (seen ++ first) rest last) :
    DepthFirst heads seen (pending ++ rest) (first ++ last) := by
  induction h with
  | done seen => rwa [List.append_nil] at h'
  | skip hn _ ih => exact .skip hn (ih h')
  | @visit seen pending below after n hnew hbelow _ _ ih =>
    have hsplit : seen ++ (n :: below ++ after) = (seen ++ n :: below) ++ after :=
      (List.append_assoc _ _ _).symm
    rw [List.append_assoc (n :: below)]
    exact .visit hnew hbelow (ih (hsplit ▸ h'))

/-- Pending nodes that were seen may have been left out. -/
theorem of_filter {p : N → Bool} (h : DepthFirst heads seen (pending.filter p) order)
    (hp : ∀ n, p n = false → n ∈ seen) : DepthFirst heads seen pending order := by
  induction pending generalizing seen order with
  | nil => exact h
  | cons n pending ih =>
    cases hn : p n with
    | false =>
      rw [List.filter_cons_of_neg (by simp [hn])] at h
      exact .skip (hp n hn) (ih h hp)
    | true =>
      rw [List.filter_cons_of_pos hn] at h
      cases h with
      | skip hmem h => exact .skip hmem (ih h hp)
      | visit hnew hbelow hafter =>
        exact .visit hnew hbelow (ih hafter fun k hk => List.mem_append_left _ (hp k hk))

/-- What is visited is reachable from a pending node. -/
theorem exists_reflTransGen (h : DepthFirst heads seen pending order) :
    ∀ n ∈ order, ∃ p ∈ pending, ReflTransGen (fun a b => b ∈ heads a) p n := by
  induction h with
  | done => exact fun n hn => absurd hn List.not_mem_nil
  | skip _ _ ih =>
    intro n hn
    obtain ⟨p, hp, hreach⟩ := ih n hn
    exact ⟨p, List.mem_cons_of_mem _ hp, hreach⟩
  | @visit seen pending below after m _ _ _ ihBelow ihAfter =>
    intro n hn
    rcases List.mem_append.1 hn with hn | hn
    · rcases List.mem_cons.1 hn with rfl | hn
      · exact ⟨n, List.mem_cons_self, .refl⟩
      · obtain ⟨p, hp, hreach⟩ := ihBelow n hn
        exact ⟨m, List.mem_cons_self, .head hp hreach⟩
    · obtain ⟨p, hp, hreach⟩ := ihAfter n hn
      exact ⟨p, List.mem_cons_of_mem _ hp, hreach⟩

/-- A pending node was seen or is visited. -/
theorem pending_subset (h : DepthFirst heads seen pending order) : pending ⊆ seen ++ order := by
  induction h with
  | done => exact List.nil_subset _
  | skip hn _ ih => exact List.cons_subset.2 ⟨List.mem_append_left _ hn, ih⟩
  | @visit seen pending below after n _ _ _ _ ih =>
    rw [List.append_assoc] at ih
    exact List.cons_subset.2 ⟨List.mem_append_right _ List.mem_cons_self, ih⟩

end DepthFirst

/-- The heads of a node, where a node whose heads are refused has none. -/
def givenHeads (heads : N → Except ε (List N)) (n : N) : List N :=
  match heads n with
  | .ok hs => hs
  | .error _ => []

theorem givenHeads_of_ok {heads : N → Except ε (List N)} {n : N} {hs : List N}
    (h : heads n = .ok hs) : givenHeads heads n = hs := by
  rw [givenHeads, h]

/-- The first of the nodes whose heads are refused. -/
theorem exists_first_error {heads : N → Except ε (List N)} {order : List N} {n : N} {e : ε}
    (hn : n ∈ order) (he : heads n = .error e) :
    ∃ before n after e, order = before ++ n :: after ∧
      (∀ m ∈ before, ∃ hs, heads m = .ok hs) ∧ heads n = .error e := by
  induction order with
  | nil => exact absurd hn List.not_mem_nil
  | cons m order ih =>
    cases hm : heads m with
    | error e' => exact ⟨[], m, order, e', rfl, fun _ h => absurd h List.not_mem_nil, hm⟩
    | ok hs =>
      have hmem : n ∈ order := by
        rcases List.mem_cons.1 hn with rfl | hn
        · rw [hm] at he
          cases he
        · exact hn
      obtain ⟨before, n', after, e', rfl, hbefore, hn'⟩ := ih hmem
      exact ⟨m :: before, n', after, e', rfl, List.forall_mem_cons.2 ⟨⟨hs, hm⟩, hbefore⟩, hn'⟩

/-! ## Going through an order -/

namespace Exploration

/-- Asks for the heads of the given nodes one after the other, up to the
first refusal. -/
def ofOrder (heads : N → Except ε (List N)) (found : Adjacency N) : List N → Exploration ε N
  | [] => .complete found
  | n :: order =>
    match heads n with
    | .error e => .failed found n e
    | .ok hs => ofOrder heads (found ++ [(n, hs)]) order

/-- An order is gone through in parts. -/
theorem ofOrder_append (heads : N → Except ε (List N)) (found : Adjacency N)
    (first last : List N) :
    ofOrder heads found (first ++ last) =
      match ofOrder heads found first with
      | .complete all => ofOrder heads all last
      | outcome => outcome := by
  induction first generalizing found with
  | nil => rfl
  | cons n first ih =>
    rw [List.cons_append, ofOrder, ofOrder]
    cases heads n with
    | error e => rfl
    | ok hs => exact ih _

/-- Without a refusal all nodes are recorded with their heads. -/
theorem ofOrder_of_forall_ok {heads : N → Except ε (List N)} {order : List N}
    (h : ∀ n ∈ order, ∃ hs, heads n = .ok hs) (found : Adjacency N) :
    ofOrder heads found order =
      .complete (found ++ order.map fun n => (n, givenHeads heads n)) := by
  induction order generalizing found with
  | nil => rw [ofOrder, List.map_nil, List.append_nil]
  | cons n order ih =>
    obtain ⟨hs, hn⟩ := h n List.mem_cons_self
    have hrest := ih (fun m hm => h m (List.mem_cons_of_mem n hm)) (found ++ [(n, hs)])
    simp only [ofOrder, hn, hrest, List.map_cons, givenHeads_of_ok hn, List.append_assoc,
      List.singleton_append]

/-- The first refusal ends it. -/
theorem ofOrder_of_error {heads : N → Except ε (List N)} {before after : List N} {n : N} {e : ε}
    (h : ∀ m ∈ before, ∃ hs, heads m = .ok hs) (hn : heads n = .error e) (found : Adjacency N) :
    ofOrder heads found (before ++ n :: after) =
      .failed (found ++ before.map fun m => (m, givenHeads heads m)) n e := by
  rw [ofOrder_append, ofOrder_of_forall_ok h]
  simp only [ofOrder, hn]

/-- What was gone through is what is recorded. -/
theorem nodes_of_ofOrder {heads : N → Except ε (List N)} {order : List N}
    {found all : Adjacency N} (h : ofOrder heads found order = .complete all) :
    all.nodes = found.nodes ++ order := by
  induction order generalizing found with
  | nil => cases h; exact (List.append_nil _).symm
  | cons n order ih =>
    rw [ofOrder] at h
    split at h
    · cases h
    · rw [ih h, Adjacency.nodes_append, Adjacency.nodes_singleton, List.append_assoc,
        List.singleton_append]

end Exploration

/-! ## Stack and recursion -/

section

variable [DecidableEq N] {heads : N → Except ε (List N)} {room : Nat} {stack : List N}
  {found : Adjacency N} {n : N}

/-- A node that was found is dropped when its turn comes. -/
theorem explore_cons_of_mem (hn : n ∈ found.nodes) :
    explore heads room (n :: stack) found = explore heads room stack found := by
  rw [explore.eq_def]
  simp only [if_pos (Adjacency.has_iff_mem_nodes.2 hn)]

/-- A new node whose heads are refused ends the exploration. -/
theorem explore_cons_of_error {e : ε} (hn : n ∉ found.nodes) (h : heads n = .error e) :
    explore heads (room + 1) (n :: stack) found = .failed found n e := by
  rw [explore.eq_def]
  simp only [if_neg (fun hhas => hn (Adjacency.has_iff_mem_nodes.1 hhas)), h]

/-- The heads of a new node that are new too wait in front of all
others. -/
theorem explore_cons_of_ok_fresh {hs : List N} (hn : n ∉ found.nodes) (h : heads n = .ok hs) :
    explore heads (room + 1) (n :: stack) found =
      explore heads room (Adjacency.fresh (found ++ [(n, hs)]) hs ++ stack)
        (found ++ [(n, hs)]) := by
  rw [explore.eq_def]
  simp only [if_neg (fun hhas => hn (Adjacency.has_iff_mem_nodes.1 hhas)), h]

/-- A new node that there is no room for ends the exploration. -/
theorem explore_zero_cons (hn : n ∉ found.nodes) :
    explore heads 0 (n :: stack) found = .full found n := by
  rw [explore.eq_def]
  simp only [if_neg (fun hhas => hn (Adjacency.has_iff_mem_nodes.1 hhas))]

/-- **Nodes that were found may be taken off the stack** before their turn
comes. -/
theorem explore_filter {p : N → Bool} (stack : List N)
    (hp : ∀ n, p n = false → n ∈ found.nodes) :
    explore heads room (stack.filter p) found = explore heads room stack found := by
  have hkeep : ∀ {found : Adjacency N} {n}, (∀ n, p n = false → n ∈ found.nodes) →
      ¬ found.has n = true → p n = true ∧ n ∉ found.nodes := by
    intro found n hp hhas
    have hn : n ∉ found.nodes := fun hn => hhas (Adjacency.has_iff_mem_nodes.2 hn)
    exact ⟨by by_contra hfalse; exact hn (hp n (by simpa using hfalse)), hn⟩
  fun_induction explore heads room stack found with
  | case1 => exact explore.eq_def ..
  | case2 room found n stack hhas ih =>
    rw [List.filter_cons]
    split
    · rw [explore_cons_of_mem (Adjacency.has_iff_mem_nodes.1 hhas)]
      exact ih hp
    · exact ih hp
  | case3 found n stack hhas =>
    obtain ⟨hpn, hn⟩ := hkeep hp hhas
    rw [List.filter_cons_of_pos hpn, explore_zero_cons hn]
  | case4 found n stack hhas room e hheads =>
    obtain ⟨hpn, hn⟩ := hkeep hp hhas
    rw [List.filter_cons_of_pos hpn, explore_cons_of_error hn hheads]
  | case5 found n stack hhas room hs hheads grown ih =>
    obtain ⟨hpn, hn⟩ := hkeep hp hhas
    have hgrown : ∀ k, p k = false → k ∈ grown.nodes := by
      intro k hk
      rw [Adjacency.nodes_append]
      exact List.mem_append_left _ (hp k hk)
    -- of the heads that are put on the stack none was found
    have hfresh : (grown.fresh hs).filter p = grown.fresh hs := by
      refine List.filter_eq_self.2 fun k hk => ?_
      by_contra hfalse
      exact (Adjacency.mem_fresh.1 hk).2 (hgrown k (by simpa using hfalse))
    rw [List.filter_cons_of_pos hpn, explore_cons_of_ok_fresh hn hheads, ← ih hgrown,
      List.filter_append, hfresh]

/-- The heads of a new node may all wait in front of all others. -/
theorem explore_cons_of_ok {hs : List N} (hn : n ∉ found.nodes) (h : heads n = .ok hs) :
    explore heads (room + 1) (n :: stack) found =
      explore heads room (hs ++ stack) (found ++ [(n, hs)]) := by
  have hp : ∀ k, (!Adjacency.has (found ++ [(n, hs)]) k) = false →
      k ∈ Adjacency.nodes (found ++ [(n, hs)]) := by
    intro k hk
    exact Adjacency.has_iff_mem_nodes.1 (by simpa using hk)
  rw [explore_cons_of_ok_fresh hn h, ← explore_filter (_ ++ stack) hp,
    ← explore_filter (hs ++ stack) hp, List.filter_append, List.filter_append, Adjacency.fresh,
    List.filter_filter]
  simp only [Bool.and_self]

/-- **The stack holds what the recursion has still to visit.** What waits
in front of the stack is visited as the recursion visits it, before the
rest of the stack is looked at. -/
theorem explore_append {seen pending order : List N}
    (h : DepthFirst (givenHeads heads) seen pending order) (hseen : found.nodes = seen)
    (hroom : order.length ≤ room) :
    explore heads room (pending ++ stack) found =
      match Exploration.ofOrder heads found order with
      | .complete all => explore heads (room - order.length) stack all
      | outcome => outcome := by
  -- along the recursion, for every stack behind what is pending
  induction h generalizing found stack room with
  | done => rfl
  | skip hn _ ih =>
    rw [List.cons_append, explore_cons_of_mem (hseen ▸ hn)]
    exact ih hseen hroom
  | @visit seen pending below after n hnew _ _ ihBelow ihAfter =>
    have hn : n ∉ found.nodes := hseen ▸ hnew
    simp only [List.cons_append, List.length_cons, List.length_append] at hroom ⊢
    obtain ⟨left, rfl⟩ : ∃ left, room = left + 1 := ⟨room - 1, by omega⟩
    rw [Exploration.ofOrder]
    cases hheads : heads n with
    | error e => exact explore_cons_of_error hn hheads
    | ok hs =>
      rw [givenHeads_of_ok hheads] at ihBelow
      have hnodes : (found ++ [(n, hs)] : Adjacency N).nodes = seen ++ [n] := by
        rw [Adjacency.nodes_append, Adjacency.nodes_singleton, hseen]
      simp only
      rw [explore_cons_of_ok hn hheads, ihBelow hnodes (by omega), Exploration.ofOrder_append]
      cases hbelow : Exploration.ofOrder heads (found ++ [(n, hs)]) below with
      | complete all =>
        -- what is below the node is recorded, and the rest of the stack comes next
        have hall : all.nodes = seen ++ n :: below := by
          rw [Exploration.nodes_of_ofOrder hbelow, hnodes, List.append_assoc,
            List.singleton_append]
        have hleft : left - below.length - after.length =
            left + 1 - (below.length + after.length + 1) := by omega
        simp only
        rw [ihAfter hall (by omega), hleft]
      | failed all m e => rfl
      | full all m => rfl

/-- **A complete exploration follows the recursion.** -/
theorem exists_depthFirst_of_complete {all : Adjacency N}
    (h : explore heads room stack found = .complete all) :
    ∃ order, all.nodes = found.nodes ++ order ∧
      DepthFirst (givenHeads heads) found.nodes stack order := by
  fun_induction explore heads room stack found with
  | case1 => cases h; exact ⟨[], (List.append_nil _).symm, .done _⟩
  | case2 room found n stack hhas ih =>
    obtain ⟨order, hnodes, horder⟩ := ih h
    exact ⟨order, hnodes, .skip (Adjacency.has_iff_mem_nodes.1 hhas) horder⟩
  | case3 => cases h
  | case4 => cases h
  | case5 found n stack hhas room hs hheads grown ih =>
    obtain ⟨order, hnodes, horder⟩ := ih h
    -- what waits is the heads of the node that are new, and then the rest of the stack
    obtain ⟨below, after, rfl, hbelow, hafter⟩ := horder.exists_append
    have hbelow := hbelow.of_filter fun k hk => Adjacency.has_iff_mem_nodes.1 (by simpa using hk)
    rw [Adjacency.nodes_append, Adjacency.nodes_singleton] at hnodes hbelow hafter
    rw [← givenHeads_of_ok hheads] at hbelow
    refine ⟨n :: below ++ after, ?_, .visit ?_ hbelow ?_⟩
    · rw [hnodes, List.append_assoc, List.singleton_append, List.cons_append]
    · exact fun hn => hhas (Adjacency.has_iff_mem_nodes.2 hn)
    · rwa [List.append_assoc, List.singleton_append] at hafter

/-! ## Questions -/

/-- The nodes whose heads an exploration asks for, as it records them. -/
def questions (heads : N → Except ε (List N)) (room : Nat) (stack : List N)
    (found : Adjacency N) : List N :=
  (exploreWith (recording heads) room stack found []).1

section

variable (asked : List N)

/-- A node that was found is not asked for again. -/
theorem exploreWith_cons_of_mem (hn : n ∈ found.nodes) :
    exploreWith (recording heads) room (n :: stack) found asked =
      exploreWith (recording heads) room stack found asked := by
  rw [exploreWith.eq_def]
  simp only [if_pos (Adjacency.has_iff_mem_nodes.2 hn)]

/-- A new node is recorded before all that comes after it. -/
theorem exploreWith_cons_of_ok {hs : List N} (hn : n ∉ found.nodes) (h : heads n = .ok hs) :
    exploreWith (recording heads) (room + 1) (n :: stack) found asked =
      exploreWith (recording heads) room (Adjacency.fresh (found ++ [(n, hs)]) hs ++ stack)
        (found ++ [(n, hs)]) (asked ++ [n]) := by
  rw [exploreWith.eq_def]
  simp only [if_neg (fun hhas => hn (Adjacency.has_iff_mem_nodes.1 hhas)), recording, h]

/-- **The record changes nothing in the exploration**, and it is continued
from what was recorded before. -/
theorem exploreWith_recording :
    exploreWith (recording heads) room stack found asked =
      (asked ++ questions heads room stack found, explore heads room stack found) := by
  simp only [questions]
  fun_induction explore heads room stack found generalizing asked with
  | case1 => simp [exploreWith]
  | case2 room found n stack hhas ih =>
    have hn := Adjacency.has_iff_mem_nodes.1 hhas
    rw [exploreWith_cons_of_mem asked hn, exploreWith_cons_of_mem [] hn, ih]
  | case3 found n stack hhas => simp [exploreWith, hhas]
  | case4 found n stack hhas room e hheads => simp [exploreWith, recording, hhas, hheads]
  | case5 found n stack hhas room hs hheads grown ih =>
    have hn : n ∉ found.nodes := fun hn => hhas (Adjacency.has_iff_mem_nodes.2 hn)
    rw [exploreWith_cons_of_ok asked hn hheads, exploreWith_cons_of_ok [] hn hheads, ih,
      ih ([] ++ [n]), List.nil_append, List.append_assoc]

end

theorem questions_cons_of_mem (hn : n ∈ found.nodes) :
    questions heads room (n :: stack) found = questions heads room stack found := by
  rw [questions, exploreWith_cons_of_mem [] hn, questions]

/-- The question that is refused is the last. -/
theorem questions_cons_of_error {e : ε} (hn : n ∉ found.nodes) (h : heads n = .error e) :
    questions heads (room + 1) (n :: stack) found = [n] := by
  rw [questions, exploreWith.eq_def]
  simp only [if_neg (fun hhas => hn (Adjacency.has_iff_mem_nodes.1 hhas)), recording, h,
    List.nil_append]

theorem questions_cons_of_ok {hs : List N} (hn : n ∉ found.nodes) (h : heads n = .ok hs) :
    questions heads (room + 1) (n :: stack) found =
      n :: questions heads room (Adjacency.fresh (found ++ [(n, hs)]) hs ++ stack)
        (found ++ [(n, hs)]) := by
  rw [questions, exploreWith_cons_of_ok [] hn h, exploreWith_recording]
  rfl

/-- **The questions are the nodes that get a row**, and at the end the one
that was refused. -/
theorem nodes_append_questions (heads : N → Except ε (List N)) (room : Nat) (stack : List N)
    (found : Adjacency N) :
    found.nodes ++ questions heads room stack found =
      match explore heads room stack found with
      | .failed all n _ => all.nodes ++ [n]
      | outcome => outcome.found.nodes := by
  fun_induction explore heads room stack found with
  | case1 => simp [questions, exploreWith, Exploration.found]
  | case2 room found n stack hhas ih =>
    rwa [questions_cons_of_mem (Adjacency.has_iff_mem_nodes.1 hhas)]
  | case3 found n stack hhas => simp [questions, exploreWith, hhas, Exploration.found]
  | case4 found n stack hhas room e hheads =>
    rw [questions_cons_of_error (fun hn => hhas (Adjacency.has_iff_mem_nodes.2 hn)) hheads]
  | case5 found n stack hhas room hs hheads grown ih =>
    rw [← ih, questions_cons_of_ok (fun hn => hhas (Adjacency.has_iff_mem_nodes.2 hn)) hheads,
      Adjacency.nodes_append, Adjacency.nodes_singleton, List.append_assoc, List.singleton_append]

/-- **Only the heads that are asked for matter.** -/
theorem explore_congr {heads' : N → Except ε (List N)}
    (h : ∀ n ∈ questions heads room stack found, heads' n = heads n) :
    explore heads' room stack found = explore heads room stack found := by
  fun_induction explore heads room stack found with
  | case1 => exact explore.eq_def ..
  | case2 room found n stack hhas ih =>
    have hn := Adjacency.has_iff_mem_nodes.1 hhas
    rw [questions_cons_of_mem hn] at h
    rw [explore_cons_of_mem hn]
    exact ih h
  | case3 found n stack hhas =>
    exact explore_zero_cons fun hn => hhas (Adjacency.has_iff_mem_nodes.2 hn)
  | case4 found n stack hhas room e hheads =>
    have hn : n ∉ found.nodes := fun hn => hhas (Adjacency.has_iff_mem_nodes.2 hn)
    rw [questions_cons_of_error hn hheads, List.forall_mem_singleton] at h
    exact explore_cons_of_error hn (h.trans hheads)
  | case5 found n stack hhas room hs hheads grown ih =>
    have hn : n ∉ found.nodes := fun hn => hhas (Adjacency.has_iff_mem_nodes.2 hn)
    rw [questions_cons_of_ok hn hheads, List.forall_mem_cons] at h
    rw [explore_cons_of_ok_fresh hn (h.1.trans hheads)]
    exact ih h.2

/-! ## From a root -/

/-- The node is reachable along the heads that are given. -/
def Reaches (heads : N → Except ε (List N)) : N → N → Prop :=
  ReflTransGen fun a b => b ∈ givenHeads heads a

/-- **In a finite space the recursion comes to an end**, and visits once
what is reachable. -/
theorem exists_depthFirst {root : N} (hfinite : {n | Reaches heads root n}.Finite) :
    ∃ order, DepthFirst (givenHeads heads) [] [root] order ∧ order.Nodup ∧
      ∀ n, n ∈ order ↔ Reaches heads root n := by
  have hspace : Digraph.Enclosure (givenHeads heads) hfinite.toFinset.toList.length root
      hfinite.toFinset.toList :=
    { root_mem := Finset.mem_toList.2 (hfinite.mem_toFinset.2 ReflTransGen.refl)
      heads_subset := by
        intro a ha b hb
        have hreach : Reaches heads root a := hfinite.mem_toFinset.1 (Finset.mem_toList.1 ha)
        exact Finset.mem_toList.2 (hfinite.mem_toFinset.2 (hreach.tail hb))
      length_le := Nat.le_refl _ }
  obtain ⟨order, hnodes, horder⟩ := exists_depthFirst_of_complete hspace.complete
  obtain rfl : _ = order := hnodes
  exact ⟨_, horder, hspace.closed.nodup, fun n => hspace.mem_nodes⟩

/-- **An exploration from a root goes through the order of the
recursion.** -/
theorem explore_eq_ofOrder {root : N} {order : List N}
    (h : DepthFirst (givenHeads heads) [] [root] order) (hroom : order.length ≤ room) :
    explore heads room [root] [] = .ofOrder heads [] order := by
  rw [← List.append_nil [root], explore_append h rfl hroom]
  cases Exploration.ofOrder heads [] order with
  | complete all => exact explore.eq_def ..
  | failed all n e => rfl
  | full all n => rfl

namespace Digraph.Enclosure

variable {given given' : N → List N} {root : N} {space space' : List N} {room' : Nat}

/-- **A graph of heads has the nodes in the order of the recursion**,
whatever room there is for them. -/
theorem exists_ofHeads_eq (hspace : Enclosure given room root space) :
    ∃ order, DepthFirst given [] [root] order ∧
      ofHeads given room root = ⟨root, order.map fun n => (n, given n)⟩ := by
  obtain ⟨order, hnodes, horder⟩ := exists_depthFirst_of_complete hspace.complete
  have hexplored := explored_of_complete (Explored.nil [root]) hspace.complete
  -- every row has the heads that were given, so the nodes tell the rows
  have hadjacency : (ofHeads given room root).adjacency =
      (ofHeads given room root).adjacency.nodes.map fun n => (n, given n) := by
    rw [Adjacency.nodes, List.map_map]
    refine (List.map_id _).symm.trans (List.map_congr_left fun entry hentry => ?_)
    have hheads : given entry.1 = entry.2 := Except.ok.inj (hexplored.answered _ _ hentry)
    rw [id_eq, Function.comp_apply, hheads]
  refine ⟨order, horder, ?_⟩
  rw [show order = (ofHeads given room root).adjacency.nodes from hnodes.symm, ← hadjacency]
  rfl

/-- **Heads that agree where they are asked for give the same graph.** -/
theorem ofHeads_congr (hspace : Enclosure given room root space)
    (hspace' : Enclosure given' room' root space')
    (h : ∀ n ∈ (ofHeads given room root).nodes, given n = given' n) :
    ofHeads given room root = ofHeads given' room' root := by
  obtain ⟨order, horder, hgraph⟩ := hspace.exists_ofHeads_eq
  obtain ⟨order', horder', hgraph'⟩ := hspace'.exists_ofHeads_eq
  have hnodes : (ofHeads given room root).nodes = order := by
    rw [hgraph]
    exact Adjacency.nodes_map given order
  rw [hnodes] at h
  obtain rfl := (horder.congr fun n hn => (h n hn).symm).unique horder'
  rw [hgraph, hgraph', List.map_congr_left fun n hn => by rw [h n hn]]

end Digraph.Enclosure

section Walks

variable {g : Digraph N} {start : N} (hg : g.Closed) (hstart : start ∈ g.nodes)

include hg hstart

/-- **A walk through a graph is the recursive search along its heads.** -/
theorem Digraph.depthFirst_walkFrom : DepthFirst g.headsOf [] [start] (g.walkFrom start) := by
  obtain ⟨order, horder, hgraph⟩ := (hg.enclosure hstart).exists_ofHeads_eq
  have hwalk : g.walkFrom start = order := by
    rw [walkFrom, if_pos (contains_iff.2 hstart), hgraph]
    exact Adjacency.nodes_map g.headsOf order
  rwa [hwalk]

theorem Digraph.nodup_walkFrom : (g.walkFrom start).Nodup := by
  rw [walkFrom, if_pos (contains_iff.2 hstart)]
  exact (hg.enclosure hstart).closed.nodup

end Walks

/-- **An exploration is the recursive depth-first search.** If finitely
many nodes are reachable from the root, the recursion visits them in one
order, each once. Any room for that many is enough. If all of them give
their heads, these are asked for in that order and recorded as they were
given; else the first refusal in that order is the outcome, and nothing
behind it was asked for. Either is what an exploration records that keeps
account of its questions. The graph of heads that are never refused has
the nodes in that order. -/
theorem explore_eq_recursive_search (heads : N → Except ε (List N)) (root : N)
    (hfinite : {n | Reaches heads root n}.Finite) :
    ∃ order : List N,
      (∀ order', DepthFirst (givenHeads heads) [] [root] order' ↔ order' = order) ∧
      order.Nodup ∧ (∀ n, n ∈ order ↔ Reaches heads root n) ∧
      ∀ room, order.length ≤ room →
        ((∀ n, Reaches heads root n → ∃ hs, heads n = .ok hs) →
          explore heads room [root] [] =
              .complete (order.map fun n => (n, givenHeads heads n)) ∧
            exploreWith (recording heads) room [root] [] [] =
              (order, explore heads room [root] [])) ∧
        ((∃ n e, Reaches heads root n ∧ heads n = .error e) →
          ∃ before n after e, order = before ++ n :: after ∧
            (∀ m ∈ before, ∃ hs, heads m = .ok hs) ∧ heads n = .error e ∧
            explore heads room [root] [] =
              .failed (before.map fun m => (m, givenHeads heads m)) n e ∧
            exploreWith (recording heads) room [root] [] [] =
              (before ++ [n], explore heads room [root] [])) ∧
        (∀ heads' : N → Except ε (List N),
          (∀ n ∈ (exploreWith (recording heads) room [root] [] []).1, heads' n = heads n) →
          explore heads' room [root] [] = explore heads room [root] []) ∧
        ∀ given : N → List N, (∀ n, heads n = .ok (given n)) →
          Digraph.ofHeads given room root = ⟨root, order.map fun n => (n, given n)⟩ := by
  obtain ⟨order, horder, hnodup, hmem⟩ := exists_depthFirst hfinite
  have hself : ∀ nodes : List N,
      Adjacency.nodes (nodes.map fun n => (n, givenHeads heads n)) = nodes := by
    intro nodes
    rw [Adjacency.nodes, List.map_map]
    exact List.map_id nodes
  refine ⟨order, fun order' => ⟨fun h => h.unique horder, fun h => h ▸ horder⟩, hnodup, hmem,
    fun room hroom => ⟨fun hok => ?_, ?_, fun heads' h => explore_congr h,
      fun given hgiven => ?_⟩⟩
  · have houtcome : explore heads room [root] [] =
        .complete (order.map fun n => (n, givenHeads heads n)) := by
      rw [explore_eq_ofOrder horder hroom]
      exact Exploration.ofOrder_of_forall_ok (fun n hn => hok n ((hmem n).1 hn)) []
    have hquestions := nodes_append_questions heads room [root] []
    simp only [houtcome, Exploration.found, hself order] at hquestions
    refine ⟨houtcome, ?_⟩
    rw [exploreWith_recording, ← hquestions]
    rfl
  · rintro ⟨n, e, hn, he⟩
    obtain ⟨before, m, after, e', hsplit, hbefore, hm⟩ := exists_first_error ((hmem n).2 hn) he
    have houtcome : explore heads room [root] [] =
        .failed (before.map fun m => (m, givenHeads heads m)) m e' := by
      rw [explore_eq_ofOrder horder hroom, hsplit]
      exact Exploration.ofOrder_of_error hbefore hm []
    have hquestions := nodes_append_questions heads room [root] []
    simp only [houtcome, hself before] at hquestions
    refine ⟨before, m, after, e', hsplit, hbefore, hm, houtcome, ?_⟩
    rw [exploreWith_recording, ← hquestions]
    rfl
  · -- the same recursion, with heads that cannot be refused
    have hheads : givenHeads heads = given := funext fun n => givenHeads_of_ok (hgiven n)
    rw [hheads] at horder
    have houtcome : explore (fun n => (.ok (given n) : Except Empty (List N))) room [root] [] = _ :=
      explore_eq_ofOrder horder hroom
    rw [Exploration.ofOrder_of_forall_ok fun n _ => ⟨given n, rfl⟩] at houtcome
    simp only [Digraph.ofHeads, houtcome]
    rfl

end

/-- A loop, a double edge, and a node whose heads are refused. -/
def loopHeads : Nat → Except String (List Nat)
  | 0 => .ok [1, 1, 2]
  | 1 => .ok [0, 3]
  | 3 => .error "refused"
  | _ => .ok []

theorem explore_eq_recursive_search_loopHeads :
    {n | Reaches loopHeads 0 n}.Finite ∧ DepthFirst (givenHeads loopHeads) [] [0] [0, 1, 3, 2] ∧
      explore loopHeads 4 [0] [] = .failed [(0, [1, 1, 2]), (1, [0, 3])] 3 "refused" := by
  have hfinite : {n | Reaches loopHeads 0 n}.Finite := by
    refine (Set.finite_le_nat 3).subset fun n hn => ?_
    induction hn with
    | refl => exact Nat.zero_le 3
    | @tail a b _ hstep ha =>
      have hheads : ∀ a ≤ 3, ∀ b ∈ givenHeads loopHeads a, b ≤ 3 := by decide
      exact hheads a ha b hstep
  -- below node 1 the root is passed over, and node 1 itself when its turn comes again
  have horder : DepthFirst (givenHeads loopHeads) [] [0] [0, 1, 3, 2] := by
    have hthree : DepthFirst (givenHeads loopHeads) [0, 1] [3] ([3] ++ []) :=
      .visit (by decide) (.done _) (.done _)
    have htwo : DepthFirst (givenHeads loopHeads) [0, 1, 3] [2] ([2] ++ []) :=
      .visit (by decide) (.done _) (.done _)
    have hone : DepthFirst (givenHeads loopHeads) [0] [1, 1, 2] ([1, 3] ++ [2]) :=
      .visit (by decide) (.skip (by decide) hthree) (.skip (by decide) htwo)
    have hzero : DepthFirst (givenHeads loopHeads) [] [0] ([0, 1, 3, 2] ++ []) :=
      .visit (by decide) hone (.done _)
    exact hzero
  obtain ⟨order, hunique, -, hmem, hrun⟩ := explore_eq_recursive_search loopHeads 0 hfinite
  obtain rfl := (hunique _).1 horder
  obtain ⟨before, n, after, e, hsplit, hbefore, hn, houtcome, -⟩ :=
    (hrun 4 (Nat.le_refl 4)).2.1 ⟨3, "refused", (hmem 3).1 (by decide), rfl⟩
  refine ⟨hfinite, horder, houtcome.trans ?_⟩
  -- the first two nodes give their heads and the third does not
  rcases before with _ | ⟨a, _ | ⟨b, _ | ⟨c, rest⟩⟩⟩ <;>
    simp only [List.cons_append, List.nil_append, List.cons.injEq] at hsplit
  · obtain ⟨rfl, -⟩ := hsplit
    cases hn
  · obtain ⟨-, rfl, -⟩ := hsplit
    cases hn
  · obtain ⟨rfl, rfl, rfl, -⟩ := hsplit
    cases hn
    rfl
  · obtain ⟨-, -, rfl, -⟩ := hsplit
    obtain ⟨hs, hthree⟩ := hbefore 3 (by simp)
    cases hthree

end SmellCheck
