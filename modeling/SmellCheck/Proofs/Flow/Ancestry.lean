import SmellCheck.Proofs.Digraph.Preorder
import SmellCheck.Proofs.Flow.Provenance
/-!
# What a value was made from

The value graph of a path leads from each value to its parents, so a walk
from a value meets what it was made from, in the order of the recursive
depth-first search along the parents (`ValueGraph.depthFirst_provenance`).
The root is met by no such walk, since nothing leads to it.

Parents have smaller numbers than what is made from them. The way from a
value to a parent, from there to a parent, and so on ends therefore, and
it ends at a value without parents: every value has a source
(`Replay.Grounded.exists_source`).
-/

namespace SmellCheck

open Relation

namespace Replay

variable {r : Replay} {id k : ValueId}

/-- The value was made from the other. -/
def MadeFrom (r : Replay) (id parent : ValueId) : Prop :=
  ∃ x, r.value? id = some x ∧ parent ∈ x.parents

namespace Grounded

theorem names_of_madeFrom (hr : r.Grounded) (h : r.MadeFrom id k) : r.Names k := by
  obtain ⟨x, hx, hk⟩ := h
  obtain ⟨hpos, hlt⟩ := hr.parents id x hx k hk
  exact ⟨hpos, Nat.le_trans (Nat.le_of_lt hlt) (value?_eq_some hx).2⟩

/-- What a value was made from are values, and never the root. -/
theorem names_of_reflTransGen (hr : r.Grounded) (hid : r.Names id)
    (h : ReflTransGen r.MadeFrom id k) : r.Names k := by
  rcases ReflTransGen.cases_tail h with rfl | ⟨j, -, hmade⟩
  · exact hid
  · exact hr.names_of_madeFrom hmade

/-- **Every value was made from one without parents**, if it is not one
itself. -/
theorem exists_source (hr : r.Grounded) (hid : r.Names id) :
    ∃ k x, ReflTransGen r.MadeFrom id k ∧ r.value? k = some x ∧ x.parents = [] := by
  induction id using Nat.strongRecOn with
  | ind id ih =>
    obtain ⟨x, hx⟩ := names_iff.1 hid
    cases hparents : x.parents with
    | nil => exact ⟨id, x, .refl, hx, hparents⟩
    | cons p ps =>
      have hp : p ∈ x.parents := hparents ▸ List.mem_cons_self
      have hmade : r.MadeFrom id p := ⟨x, hx, hp⟩
      obtain ⟨k, y, hk, hy⟩ := ih p (hr.parents id x hx p hp).2 (hr.names_of_madeFrom hmade)
      exact ⟨k, y, .head hmade hk, hy⟩

end Grounded

end Replay

namespace ValueGraph

open Replay

variable {r : Replay} {path : List Nat} {id k : ValueId}

/-- The parents of the value with the given number. The root, which is no
value, has none. -/
def parentsOf (vg : ValueGraph) (id : ValueId) : List ValueId :=
  ((vg.value? id).map (·.parents)).getD []

theorem mem_parentsOf (path : List Nat) : k ∈ (ofReplay path r).parentsOf id ↔ r.MadeFrom id k := by
  rw [parentsOf, value?_ofReplay, MadeFrom]
  cases r.value? id <;> simp

theorem parentsOf_eq (hr : r.Grounded) (hid : r.Names id) :
    (ofReplay path r).parentsOf id = (ofReplay path r).graph.headsOf id := by
  obtain ⟨x, hx⟩ := names_iff.1 hid
  rw [headsOf_ofReplay hr path (Or.inr hid), parentsIn_of_value? hx, parentsOf, value?_ofReplay, hx]
  rfl

/-! ## The walk from a value -/

theorem closed_graph (hr : r.Grounded) (path : List Nat) : (ofReplay path r).graph.Closed :=
  (enclosure_of_grounded hr).closed

section Grounded

variable (hr : r.Grounded) (hid : r.Names id)

include hr hid

theorem mem_nodes_of_names (path : List Nat) : id ∈ (ofReplay path r).graph.nodes :=
  (mem_nodes_ofReplay hr path).2 (Or.inr hid)

theorem edge_iff_madeFrom : (ofReplay path r).graph.Edge id k ↔ r.MadeFrom id k := by
  rw [Digraph.Edge, ← parentsOf_eq hr hid]
  exact mem_parentsOf path

/-- A walk from a value meets what it was made from. -/
theorem mem_walkFrom_iff :
    k ∈ (ofReplay path r).graph.walkFrom id ↔ ReflTransGen r.MadeFrom id k := by
  rw [Digraph.mem_walkFrom (closed_graph hr path) (mem_nodes_of_names hr hid path)]
  constructor
  · intro h
    induction h using ReflTransGen.head_induction_on with
    | refl => exact .refl
    | @head a b hedge _ ih =>
      have hmade := (edge_iff_madeFrom hr hid).1 hedge
      exact .head hmade (ih (hr.names_of_madeFrom hmade))
  · intro h
    induction h using ReflTransGen.head_induction_on with
    | refl => exact .refl
    | @head a b hmade _ ih =>
      exact .head ((edge_iff_madeFrom hr hid).2 hmade) (ih (hr.names_of_madeFrom hmade))

/-- It does not come by the root. -/
theorem provenance_eq_walkFrom :
    (ofReplay path r).provenance id = (ofReplay path r).graph.walkFrom id := by
  rw [provenance, List.filter_eq_self]
  intro k hk
  have hnames := hr.names_of_reflTransGen hid ((mem_walkFrom_iff hr hid).1 hk)
  exact bne_iff_ne.2 (Nat.ne_of_gt hnames.1)

/-- **The provenance of a value is what it was made from**, in any number
of steps. -/
theorem mem_provenance :
    k ∈ (ofReplay path r).provenance id ↔ ReflTransGen r.MadeFrom id k := by
  rw [provenance_eq_walkFrom hr hid, mem_walkFrom_iff hr hid]

theorem nodup_provenance : ((ofReplay path r).provenance id).Nodup := by
  rw [provenance_eq_walkFrom hr hid]
  exact Digraph.nodup_walkFrom (closed_graph hr path) (mem_nodes_of_names hr hid path)

/-- **Provenance follows the recursion along the parents.** -/
theorem depthFirst_provenance :
    DepthFirst (ofReplay path r).parentsOf [] [id] ((ofReplay path r).provenance id) := by
  rw [provenance_eq_walkFrom hr hid]
  refine (Digraph.depthFirst_walkFrom (closed_graph hr path)
    (mem_nodes_of_names hr hid path)).congr fun k hk => parentsOf_eq hr ?_
  exact hr.names_of_reflTransGen hid ((mem_walkFrom_iff hr hid).1 hk)

/-- The sources are the values without parents on the way. -/
theorem sources_eq_filter : (ofReplay path r).sources id =
    ((ofReplay path r).provenance id).filter fun k => (ofReplay path r).parentsOf k == [] := by
  refine List.filter_congr fun k hk => ?_
  obtain ⟨x, hx⟩ := names_iff.1 (hr.names_of_reflTransGen hid ((mem_provenance hr hid).1 hk))
  rw [parentsOf, value?_ofReplay, hx, Option.any_some, Value.isSource, Option.map_some,
    Option.getD_some]
  cases x.parents <;> rfl

theorem sources_ne_nil : (ofReplay path r).sources id ≠ [] := by
  obtain ⟨k, x, hmade, hx, hparents⟩ := hr.exists_source hid
  refine List.ne_nil_of_mem (a := k) ?_
  rw [sources_eq_filter hr hid, List.mem_filter, mem_provenance hr hid, parentsOf, value?_ofReplay,
    hx, Option.map_some, hparents]
  exact ⟨hmade, rfl⟩

end Grounded

end ValueGraph

namespace ValueTracker

variable {c : ControlFlow} {t : ValueTracker} {vg : ValueGraph}

/-- **The provenance and the sources of a value.** For every value of a
tracked path, the recursive depth-first search along the parents that
starts at the value has one order, and the provenance is that order. It
begins with the value, has the value and what it was made from in any
number of steps, each of them once, and never the root. The sources are
those of its members that have no parents, and there is at least one. -/
theorem provenance_eq_recursive_search (ht : ofControl c = .ok t) {path : Nat}
    (hvg : t.graphs[path]? = some vg) {id : ValueId} {x : Value} (hx : vg.value? id = some x) :
    ∃ order, t.provenance? ⟨path, id⟩ = some order ∧
      (∀ order', DepthFirst vg.parentsOf [] [id] order' ↔ order' = order) ∧
      order.head? = some id ∧ order.Nodup ∧
      (∀ k, k ∈ order ↔ ReflTransGen (fun a b => b ∈ vg.parentsOf a) id k) ∧
      (∀ k ∈ order, ∃ y, vg.value? k = some y) ∧ ValueGraph.rootId ∉ order ∧
      t.sources? ⟨path, id⟩ = some (order.filter fun k => vg.parentsOf k == []) ∧
      order.filter (fun k => vg.parentsOf k == []) ≠ [] := by
  obtain ⟨graphs, hgraphs, rfl⟩ := map_eq_ok.1 ht
  obtain ⟨w, -, r, hrun, rfl⟩ := exists_run_of_replayPaths hgraphs (List.mem_of_getElem? hvg)
  have hr := Replay.grounded_of_run hrun
  have hid : r.Names id := Replay.names_iff.2 ⟨x, ValueGraph.value?_ofReplay w r id ▸ hx⟩
  have horder : DepthFirst (ValueGraph.ofReplay w r).parentsOf [] [id]
      ((ValueGraph.ofReplay w r).provenance id) := ValueGraph.depthFirst_provenance hr hid
  have hmade : ∀ k, k ∈ (ValueGraph.ofReplay w r).provenance id → r.Names k := fun k hk =>
    hr.names_of_reflTransGen hid ((ValueGraph.mem_provenance hr hid).1 hk)
  refine ⟨(ValueGraph.ofReplay w r).provenance id, ?_,
    fun order' => ⟨fun h => h.unique horder, fun h => h ▸ horder⟩, ?_,
    ValueGraph.nodup_provenance hr hid, fun k => ?_, fun k hk => ?_, fun hk => ?_, ?_, ?_⟩
  · rw [provenance?, hvg, Option.map_some]
  · generalize (ValueGraph.ofReplay w r).provenance id = order at horder
    cases horder with
    | visit => rfl
    | skip hseen => exact absurd hseen List.not_mem_nil
  · simp only [ValueGraph.mem_provenance hr hid, ValueGraph.mem_parentsOf]
  · rw [ValueGraph.value?_ofReplay]
    exact Replay.names_iff.1 (hmade k hk)
  · exact Nat.lt_irrefl 0 (hmade _ hk).1
  · rw [sources?, hvg, Option.map_some, ValueGraph.sources_eq_filter hr hid]
  · rw [← ValueGraph.sources_eq_filter hr hid]
    exact ValueGraph.sources_ne_nil hr hid

/-- A value that is added to itself. -/
def doubleListing : ListingDocument :=
  Assembly.testDocument 0 [("void T::M()", "ldc.i4.1\ndup\nadd\npop\nret")]

/-- The sum was made from both copies of the constant, which is met below
the first of them. -/
theorem provenance_eq_recursive_search_doubleListing :
    ∃ a m c t vg x, Assembly.ofDocument doubleListing = .ok a ∧ m ∈ a.methods ∧
      ControlFlow.ofMethod m = .ok c ∧ ofControl c = .ok t ∧ t.graphs[0]? = some vg ∧
      vg.value? 4 = some x ∧ x.parents = [2, 3] ∧
      t.provenance? ⟨0, 4⟩ = some [4, 2, 1, 3] ∧ t.sources? ⟨0, 4⟩ = some [1] := by
  obtain ⟨a, m, c, t, ha, hm, hc, ht, htest⟩ := exists_tracker_of_any doubleListing
    [[1], [2], [3], [4], []] [(0, [1]), (1, [2]), (2, [3]), (3, [4]), (4, [])]
    (fun t => t.graphs[0]?.any fun vg => (vg.value? 4).any (·.parents == [2, 3]) &&
      vg.parentsOf 1 == [] && vg.parentsOf 2 == [1] && vg.parentsOf 3 == [1] &&
      vg.parentsOf 4 == [2, 3])
    (by simp [explore, Adjacency.has, Adjacency.fresh]) (by decide +kernel)
  simp only [Option.any_eq_true, Bool.and_eq_true, beq_iff_eq] at htest
  obtain ⟨vg, hvg, ⟨⟨⟨⟨x, hx, hparents⟩, hone⟩, htwo⟩, hthree⟩, hfour⟩ := htest
  obtain ⟨c', hc', hcontrol⟩ := bind_eq_ok.1 ht
  rw [hc] at hc'
  cases hc'
  obtain ⟨order, hprovenance, hunique, -, -, -, -, -, hsources, -⟩ :=
    provenance_eq_recursive_search hcontrol hvg hx
  -- below the second copy the constant is passed over
  have hbelow : DepthFirst vg.parentsOf [4, 2] [1] ([1] ++ []) :=
    .visit (by decide) (by rw [hone]; exact .done _) (.done _)
  have hagain : DepthFirst vg.parentsOf [4, 2, 1, 3] [1] [] := .skip (by decide) (.done _)
  have hsecond : DepthFirst vg.parentsOf [4, 2, 1] [3] ([3] ++ []) :=
    .visit (by decide) (by rw [hthree]; exact hagain) (.done _)
  have hboth : DepthFirst vg.parentsOf [4] [2, 3] ([2, 1] ++ [3]) :=
    .visit (by decide) (by rw [htwo]; exact hbelow) hsecond
  have horder : DepthFirst vg.parentsOf [] [4] ([4, 2, 1, 3] ++ []) :=
    .visit (by decide) (by rw [hfour]; exact hboth) (.done _)
  obtain rfl : [4, 2, 1, 3] = order := (hunique _).1 horder
  refine ⟨a, m, c, t, vg, x, ha, hm, hc, hcontrol, hvg, hx, hparents, hprovenance, ?_⟩
  rw [hsources]
  simp [hone, htwo, hthree, hfour]

end ValueTracker

end SmellCheck
