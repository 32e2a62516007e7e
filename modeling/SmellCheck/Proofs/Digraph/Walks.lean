import Mathlib.Data.List.Nodup
/-!
# Walks

A walk follows a relation from one node to another, for any number of
steps, and may meet a node any number of times. Walks are cut at a node
that they meet and put together at a node that they share. Cutting the
laps out of a walk leaves one that meets every node once at most
(`Walk.exists_nodup`), and two of these in a row meet no node more than
twice.
-/

namespace SmellCheck

variable {N : Type}

/-- A walk along a relation, with the nodes that it meets in order. -/
inductive Walk (R : N → N → Prop) : N → N → List N → Prop
  /-- Staying at a node. -/
  | single (n : N) : Walk R n n [n]
  /-- One step, and a walk from there. -/
  | cons {n next last : N} {w : List N} : R n next → Walk R next last w → Walk R n last (n :: w)

namespace Walk

variable {R S : N → N → Prop} {a b c d p : N} {u v w : List N}

/-- A walk begins with its first node. -/
theorem exists_eq_cons (h : Walk R a b w) : ∃ t, w = a :: t := by
  cases h with
  | single => exact ⟨[], rfl⟩
  | @cons _ _ _ w _ _ => exact ⟨w, rfl⟩

theorem eq_of_cons (h : Walk R a b (p :: v)) : a = p := by
  obtain ⟨t, ht⟩ := h.exists_eq_cons
  exact (List.cons.inj ht).1.symm

/-- A walk that goes on makes a step. -/
theorem exists_step (h : Walk R a b (p :: w)) (hne : w ≠ []) :
    ∃ next, R a next ∧ Walk R next b w := by
  cases h with
  | single => exact absurd rfl hne
  | @cons _ next _ _ hstep hw => exact ⟨next, hstep, hw⟩

theorem getLast? (h : Walk R a b w) : w.getLast? = some b := by
  induction h with
  | single n => rfl
  | @cons n next last w _ hw ih =>
    obtain ⟨t, rfl⟩ := hw.exists_eq_cons
    rw [List.getLast?_cons_cons, ih]

theorem last_mem (h : Walk R a b w) : b ∈ w :=
  List.mem_of_getLast? h.getLast?

/-- A walk along a relation is one along any that holds on its steps. -/
theorem imp (h : Walk R a b w) (hRS : ∀ x ∈ w, ∀ y, R x y → S x y) : Walk S a b w := by
  induction h with
  | single n => exact .single n
  | cons hstep _ ih =>
    exact .cons (hRS _ List.mem_cons_self _ hstep)
      (ih fun x hx => hRS x (List.mem_cons_of_mem _ hx))

/-- What holds of the first node and is kept by steps holds of all. -/
theorem forall_of_forall_step {P : N → Prop} (h : Walk R a b w) (ha : P a)
    (hstep : ∀ x y, P x → R x y → P y) : ∀ x ∈ w, P x := by
  induction h with
  | single n => intro x hx; rw [List.mem_singleton.1 hx]; exact ha
  | cons hR _ ih =>
    intro x hx
    rcases List.mem_cons.1 hx with rfl | hx
    · exact ha
    · exact ih (hstep _ _ ha hR) x hx

/-! ## Cutting and joining -/

/-- A walk is cut at a node that it meets, which both parts keep. -/
theorem split (h : Walk R a b (u ++ p :: v)) : Walk R a p (u ++ [p]) ∧ Walk R p b (p :: v) := by
  induction u generalizing a with
  | nil =>
    obtain rfl := h.eq_of_cons
    exact ⟨.single a, h⟩
  | cons x u ih =>
    obtain rfl := h.eq_of_cons
    obtain ⟨next, hstep, hw⟩ := h.exists_step (by simp)
    obtain ⟨hl, hr⟩ := ih hw
    exact ⟨.cons hstep hl, hr⟩

/-- Two walks are joined at the node that they share. -/
theorem join (h : Walk R a p (u ++ [p])) (h' : Walk R p b v) : Walk R a b (u ++ v) := by
  induction u generalizing a with
  | nil =>
    obtain rfl := h.eq_of_cons
    exact h'
  | cons x u ih =>
    obtain rfl := h.eq_of_cons
    obtain ⟨next, hstep, hw⟩ := h.exists_step (by simp)
    exact .cons hstep (ih hw)

/-- Two walks are joined by a step. -/
theorem append (h : Walk R a b u) (hstep : R b c) (h' : Walk R c d v) : Walk R a d (u ++ v) := by
  induction h with
  | single n => exact .cons hstep h'
  | cons hR _ ih => exact .cons hR (ih hstep)

/-- The step between two neighbours on a walk. -/
theorem rel_of_append (h : Walk R a b (u ++ p :: c :: v)) : R p c := by
  obtain ⟨next, hstep, hw⟩ := h.split.2.exists_step (List.cons_ne_nil c v)
  obtain rfl := hw.eq_of_cons
  exact hstep

/-! ## Cutting out laps -/

/-- **A walk contains one that meets every node once at most**, between
the same ends: a node that comes back is met at its last visit only. -/
theorem exists_nodup (h : Walk R a b w) : ∃ w', Walk R a b w' ∧ w'.Nodup ∧ w' ⊆ w := by
  induction h with
  | single n => exact ⟨[n], .single n, List.nodup_singleton n, List.Subset.refl _⟩
  | @cons n next last w hstep _ ih =>
    obtain ⟨w', hw', hnodup, hsub⟩ := ih
    by_cases hn : n ∈ w'
    · -- the rest of the walk comes back to its first node
      obtain ⟨u, v, rfl⟩ := List.append_of_mem hn
      refine ⟨n :: v, hw'.split.2, (List.nodup_append.1 hnodup).2.1, ?_⟩
      intro x hx
      exact List.mem_cons_of_mem _ (hsub (List.mem_append_right u hx))
    · exact ⟨n :: w', .cons hstep hw', List.nodup_cons.2 ⟨hn, hnodup⟩,
        List.cons_subset_cons n hsub⟩

/-- A walk to a node contains one that meets it at the end only. -/
theorem exists_nodup_before (h : Walk R a p (u ++ [p])) :
    ∃ u', Walk R a p (u' ++ [p]) ∧ (u' ++ [p]).Nodup := by
  obtain ⟨w, hw, hnodup, -⟩ := h.exists_nodup
  obtain ⟨u', hu'⟩ := List.getLast?_eq_some_iff.1 hw.getLast?
  exact ⟨u', hu' ▸ hw, hu' ▸ hnodup⟩

/-- Two lists without repetition meet no node more than twice. -/
theorem count_append_le_two [DecidableEq N] (hu : u.Nodup) (hv : v.Nodup) (x : N) :
    (u ++ v).count x ≤ 2 := by
  have h₁ := List.nodup_iff_count_le_one.1 hu x
  have h₂ := List.nodup_iff_count_le_one.1 hv x
  rw [List.count_append]
  omega

end Walk

end SmellCheck
