import SmellCheck.Proofs.Digraph.Explore
/-!
# The table of tails

The tails of all nodes are filled into one table, edge by edge. A row of
the graph adds its node to the entry of each of its heads, once for each
edge, and makes the entry if there is none yet. What the table has for a
node in the end is what `tailsOf` reads off the graph; it also has an
entry for a head that is no node of the graph, if there is such a head
(`lookup_tailTable`).
-/

namespace SmellCheck

variable {N : Type} [DecidableEq N]

namespace Adjacency

/-- An entry, or none, after some nodes were added to it. -/
def extended : (entry : Option (List N)) → (added : List N) → Option (List N)
  | entry, [] => entry
  | entry, m :: added => some (entry.getD [] ++ m :: added)

omit [DecidableEq N] in
/-- Nodes are added one part after the other. -/
theorem extended_append (entry : Option (List N)) (first last : List N) :
    extended (extended entry first) last = extended entry (first ++ last) := by
  cases first with
  | nil => rfl
  | cons m first =>
    cases last with
    | nil => rw [List.append_nil, extended]
    | cons k last => simp [extended]

/-- One node is added to one entry. -/
theorem lookup_push (a : Adjacency N) (n m k : N) :
    (a.push n m).lookup k = extended (a.lookup k) (if n = k then [m] else []) := by
  induction a with
  | nil =>
    by_cases hk : n = k
    · simp [push, extended, hk]
    · have hne : ¬ k = n := fun h => hk h.symm
      simp [push, extended, hk, hne]
  | cons entry a ih =>
    obtain ⟨i, ms⟩ := entry
    by_cases hi : i = n
    · subst hi
      by_cases hk : i = k
      · subst hk
        simp [push, extended]
      · have hbeq : (k == i) = false := by simpa using Ne.symm hk
        simp [push, extended, List.lookup_cons, hbeq, hk]
    · by_cases hk : k = i
      · subst hk
        simp [push, extended, hi, Ne.symm hi]
      · have hbeq : (k == i) = false := by simpa using hk
        simp [push, hi, List.lookup_cons, hbeq, ih]

/-- **A row adds its node to the entries of its heads**, once for each
edge. -/
theorem lookup_foldl_push (a : Adjacency N) (n k : N) (hs : List N) :
    (hs.foldl (fun table h => push h n table) a).lookup k =
      extended (a.lookup k) ((hs.filter (· == k)).map fun _ => n) := by
  induction hs generalizing a with
  | nil => rfl
  | cons h hs ih =>
    rw [List.foldl_cons, ih, lookup_push, extended_append]
    by_cases hk : h = k
    · simp [hk]
    · simp [hk]

/-- Row by row the table gets what all rows add to an entry. -/
theorem lookup_foldl_rows (rows table : Adjacency N) (n : N) :
    (rows.foldl (fun table row => row.2.foldl (fun table h => push h row.1 table) table)
      table).lookup n =
      extended (table.lookup n)
        (rows.flatMap fun row => (row.2.filter (· == n)).map fun _ => row.1) := by
  induction rows generalizing table with
  | nil => rfl
  | cons row rows ih =>
    rw [List.foldl_cons, ih, lookup_foldl_push, extended_append, List.flatMap_cons]

end Adjacency

namespace Digraph

open Adjacency

variable {g : Digraph N} {n : N}

/-- At first every node has an entry without tails. -/
theorem lookup_map_nil (nodes : List N) :
    (nodes.map fun m => (m, ([] : List N))).lookup n = if n ∈ nodes then some [] else none := by
  induction nodes with
  | nil => rfl
  | cons m nodes ih =>
    by_cases hm : n = m
    · simp [hm]
    · have hbeq : (n == m) = false := by simpa using hm
      simp [List.lookup_cons, hbeq, ih, hm]

/-- **What the table has for a node**: its tails, as they are read off
the graph. Without tails only a node of the graph has an entry. -/
theorem lookup_tailTable (g : Digraph N) (n : N) :
    g.tailTable.lookup n = extended (if n ∈ g.nodes then some [] else none) (g.tailsOf n) := by
  have hrows := lookup_foldl_rows g.adjacency (g.nodes.map fun m => (m, [])) n
  rw [lookup_map_nil] at hrows
  exact hrows

/-- The tails of a node of the graph are known. -/
theorem tails_eq_ok (hn : n ∈ g.nodes) : g.tails n = .ok (g.tailsOf n) := by
  rw [tails, lookup_tailTable, if_pos hn]
  cases g.tailsOf n <;> rfl

/-- Those of what is neither a node nor a head are not. -/
theorem tails_eq_error (hn : n ∉ g.nodes) (htails : g.tailsOf n = []) :
    g.tails n = .error (.unknownNode (.tails n)) := by
  rw [tails, lookup_tailTable, if_neg hn, htails]
  rfl

end Digraph

end SmellCheck
