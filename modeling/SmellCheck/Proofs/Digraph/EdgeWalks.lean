import SmellCheck.Proofs.Digraph.Reach
/-!
# Edge walks

An edge walk is told by the indices of the heads that it takes. Like
walks, edge walks are put together at a node that they share and cut
there. Two different edge walks from one node, each to a node without
heads, part at a fork: a node on both of them from which they take
different edges (`exists_fork`).
-/

namespace SmellCheck.Digraph

open Relation

variable {N : Type} [DecidableEq N] {g : Digraph N} {n p : N} {u v w w' : List N}
variable {xs ys : List Nat} {index : Nat}

/-- An edge walk that goes on takes an edge. -/
theorem follow?_cons_eq_some : g.follow? n (index :: xs) = some w ↔
    ∃ head v, (g.headsOf n)[index]? = some head ∧ g.follow? head xs = some v ∧ n :: v = w := by
  rw [follow?]
  cases hhead : (g.headsOf n)[index]? with
  | none => simp
  | some head => simp

/-- Without heads there is no edge to take. -/
theorem follow?_cons_of_headsOf_eq_nil (h : g.headsOf n = []) :
    g.follow? n (index :: xs) = none := by
  rw [follow?, h]
  rfl

/-- What comes behind the first node ends where the whole does. -/
theorem getLast?_cons_of_follow? (h : g.follow? n xs = some w) :
    (p :: w).getLast? = w.getLast? := by
  obtain ⟨t, rfl⟩ := exists_eq_cons_of_follow? h
  exact List.getLast?_cons_cons

theorem reflTransGen_of_follow? {last : N} (h : g.follow? n xs = some w)
    (hlast : w.getLast? = some last) : ReflTransGen g.Edge n last := by
  obtain ⟨last', hw⟩ := walk_of_follow? h
  obtain rfl : last' = last := Option.some.inj (hw.getLast?.symm.trans hlast)
  exact hw.reflTransGen

/-- Before the first edge an edge walk has come to its first node. -/
theorem eq_of_follow?_nil (h : g.follow? n [] = some (u ++ [p])) : u = [] ∧ n = p := by
  have hsplit : [] ++ [n] = u ++ [p] := Option.some.inj h
  obtain ⟨hu, hp⟩ := List.append_inj' hsplit rfl
  exact ⟨hu.symm, List.singleton_inj.1 hp⟩

/-- Behind its first edge it has come to where it would have from the
head. -/
theorem follow?_cons_concat (h : g.follow? n (index :: xs) = some (u ++ [p])) :
    ∃ head v, (g.headsOf n)[index]? = some head ∧ g.follow? head xs = some (v ++ [p]) ∧
      u = n :: v := by
  obtain ⟨head, t, hhead, ht, heq⟩ := follow?_cons_eq_some.1 h
  cases u with
  | nil =>
    obtain ⟨t', rfl⟩ := exists_eq_cons_of_follow? ht
    cases heq
  | cons x v =>
    obtain ⟨rfl, rfl⟩ := List.cons.inj heq
    exact ⟨head, v, hhead, ht, rfl⟩

/-! ## Cutting and joining -/

/-- **An edge walk is cut behind any number of edges**, at the node that
it has come to. -/
theorem follow?_append_eq_some : g.follow? n (xs ++ ys) = some w ↔
    ∃ u p v, g.follow? n xs = some (u ++ [p]) ∧ g.follow? p ys = some v ∧ u ++ v = w := by
  induction xs generalizing n w with
  | nil =>
    constructor
    · intro h
      exact ⟨[], n, w, rfl, h, rfl⟩
    · rintro ⟨u, p, v, hu, hv, rfl⟩
      obtain ⟨rfl, rfl⟩ := eq_of_follow?_nil hu
      exact hv
  | cons index xs ih =>
    rw [List.cons_append, follow?_cons_eq_some]
    constructor
    · rintro ⟨head, t, hhead, ht, rfl⟩
      obtain ⟨u, p, v, hu, hv, rfl⟩ := ih.1 ht
      exact ⟨n :: u, p, v, follow?_cons_eq_some.2 ⟨head, _, hhead, hu, rfl⟩, hv, rfl⟩
    · rintro ⟨u, p, v, hu, hv, rfl⟩
      obtain ⟨head, u, hhead, ht, rfl⟩ := follow?_cons_concat hu
      exact ⟨head, u ++ v, hhead, ih.2 ⟨u, p, v, ht, hv, rfl⟩, rfl⟩

/-- **The edges that are taken**: an edge walk takes an edge if it has
come to its node when it takes its index. -/
theorem mem_zip_of_follow? (h : g.follow? n xs = some w) :
    (p, index) ∈ w.zip xs ↔
      ∃ before after u, xs = before ++ index :: after ∧ g.follow? n before = some (u ++ [p]) := by
  induction xs generalizing n w with
  | nil => simp
  | cons i xs ih =>
    obtain ⟨head, v, hhead, hv, rfl⟩ := follow?_cons_eq_some.1 h
    rw [List.zip_cons_cons, List.mem_cons, ih hv]
    constructor
    · rintro (heq | ⟨before, after, u, rfl, hu⟩)
      · cases heq
        exact ⟨[], xs, [], rfl, rfl⟩
      · exact ⟨i :: before, after, n :: u, rfl,
          follow?_cons_eq_some.2 ⟨head, _, hhead, hu, rfl⟩⟩
    · rintro ⟨before, after, u, hxs, hu⟩
      cases before with
      | nil =>
        obtain ⟨rfl, -⟩ := List.cons.inj hxs
        obtain ⟨-, rfl⟩ := eq_of_follow?_nil hu
        exact Or.inl rfl
      | cons j before =>
        obtain ⟨rfl, rfl⟩ := List.cons.inj hxs
        obtain ⟨head', u, hhead', ht, rfl⟩ := follow?_cons_concat hu
        rw [hhead] at hhead'
        cases hhead'
        exact Or.inr ⟨before, after, u, rfl, ht⟩

/-! ## Forks -/

/-- **Two different edge walks from one node, each to a node without
heads, part at a fork.** -/
theorem exists_fork {last last' : N} (h : g.follow? n xs = some w) (h' : g.follow? n ys = some w')
    (hlast : w.getLast? = some last) (hlast' : w'.getLast? = some last')
    (hend : g.headsOf last = []) (hend' : g.headsOf last' = []) (hne : xs ≠ ys) :
    ∃ (p : N) (i j : Nat) (a b : N), ReflTransGen g.Edge n p ∧ i ≠ j ∧
      (g.headsOf p)[i]? = some a ∧ (g.headsOf p)[j]? = some b ∧
      ReflTransGen g.Edge a last ∧ ReflTransGen g.Edge b last' := by
  induction xs generalizing n ys w w' with
  | nil =>
    -- the first walk stays where there are no heads, and so the second does
    cases h
    obtain rfl : n = last := Option.some.inj hlast
    cases ys with
    | nil => exact absurd rfl hne
    | cons j ys =>
      rw [follow?_cons_of_headsOf_eq_nil hend] at h'
      cases h'
  | cons i xs ih =>
    cases ys with
    | nil =>
      cases h'
      obtain rfl : n = last' := Option.some.inj hlast'
      rw [follow?_cons_of_headsOf_eq_nil hend'] at h
      cases h
    | cons j ys =>
      obtain ⟨a, v, ha, hv, rfl⟩ := follow?_cons_eq_some.1 h
      obtain ⟨b, v', hb, hv', rfl⟩ := follow?_cons_eq_some.1 h'
      rw [getLast?_cons_of_follow? hv] at hlast
      rw [getLast?_cons_of_follow? hv'] at hlast'
      by_cases hij : i = j
      · -- the walks part later
        subst hij
        rw [ha] at hb
        cases hb
        have hrest : xs ≠ ys := fun heq => hne (by rw [heq])
        obtain ⟨p, i', j', a', b', hp, hfork⟩ := ih hv hv' hlast hlast' hrest
        exact ⟨p, i', j', a', b', .head (List.mem_of_getElem? ha) hp, hfork⟩
      · exact ⟨n, i, j, a, b, .refl, hij, ha, hb, reflTransGen_of_follow? hv hlast,
          reflTransGen_of_follow? hv' hlast'⟩

end SmellCheck.Digraph
