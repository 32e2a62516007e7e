import SmellCheck.Flow.Control
import SmellCheck.Proofs.Bytecode.Listing
import SmellCheck.Proofs.Digraph.Paths
/-!
# Executions and enumerated paths

An execution of a method is a walk of any length from its entry to a
return, along the positions that control may go to. The enumerated paths
of the control-flow graph are the executions that meet no position more
than twice (`mem_paths_iff`). Two pieces of executions that meet every
position once at most make up an enumerated path when they are put
together, so a fact about enumerated paths reaches every position and
every step of every execution.
-/

namespace SmellCheck.ControlFlow

variable {m : Method} {c : ControlFlow}

/-- Control may go from one position of the method to the other. -/
def Leads (m : Method) (position next : Nat) : Prop :=
  ∃ heads, successors m position = .ok heads ∧ next ∈ heads

/-- **An execution of the method**, by the positions that it meets: a
walk of any length from the entry to a return. -/
def IsExecution (m : Method) (w : List Nat) : Prop :=
  ∃ last, Walk (Leads m) 0 last w ∧ isReturn m last = true

/-! ## Where control goes -/

/-- Control leaves a position through the instruction there. -/
theorem exists_instruction_of_leads {p q : Nat} (h : Leads m p q) :
    ∃ ins, m.body[p]? = some ins := by
  obtain ⟨heads, hheads, hq⟩ := h
  rw [successors] at hheads
  split at hheads
  · cases hheads
    exact absurd hq List.not_mem_nil
  · rename_i ins hins
    exact ⟨ins, hins⟩

theorem exists_instruction_of_isReturn {p : Nat} (h : isReturn m p = true) :
    ∃ ins, m.body[p]? = some ins := by
  rw [isReturn] at h
  obtain ⟨ins, hins, -⟩ := (Option.any_eq_true _ _).1 h
  exact ⟨ins, hins⟩

/-- Control does not go on from a return. -/
theorem not_leads_of_isReturn {p q : Nat} (h : isReturn m p = true) : ¬ Leads m p q := by
  rintro ⟨heads, hheads, hq⟩
  obtain ⟨ins, hins, hflow⟩ := (Option.any_eq_true _ _).1 h
  simp only [successors, hins, successors?, eq_of_beq hflow, Except.ok.injEq] at hheads
  rw [← hheads] at hq
  exact absurd hq List.not_mem_nil

/-- Control stays in a body in order. -/
theorem successors_subset (hm : m.body.WellFormed) {p : Nat} {heads : List Nat}
    (h : successors m p = .ok heads) : heads ⊆ List.range m.body.length := by
  intro q hq
  rw [List.mem_range]
  have hfollowing : ∀ q ∈ following m.body p, q < m.body.length := by
    intro q hq
    rw [following, Body.next?] at hq
    split at hq
    · rw [List.mem_singleton.1 hq]; assumption
    · exact absurd hq List.not_mem_nil
  rw [successors] at h
  split at h
  · cases h
    exact absurd hq List.not_mem_nil
  · rename_i ins hins
    have htargets := (hm ins (List.mem_of_getElem? hins)).targets_lt
    rw [successors?] at h
    cases hflow : ins.opcode.flow with
    | unknown => simp only [hflow] at h; cases h
    | next | call | modifier | pause =>
      simp only [hflow] at h
      cases h
      exact hfollowing q hq
    | ret | throw =>
      simp only [hflow] at h
      cases h
      exact absurd hq List.not_mem_nil
    | branch =>
      simp only [hflow] at h
      cases h
      exact htargets q hq
    | condBranch =>
      simp only [hflow] at h
      cases h
      rcases List.mem_append.1 hq with hq | hq
      · exact hfollowing q hq
      · exact htargets q hq

/-- An execution meets instructions only. -/
theorem IsExecution.exists_instruction {w : List Nat} (h : IsExecution m w) :
    ∀ p ∈ w, ∃ ins, m.body[p]? = some ins := by
  obtain ⟨last, hwalk, hreturn⟩ := h
  intro p hp
  obtain ⟨u, v, rfl⟩ := List.append_of_mem hp
  cases v with
  | nil =>
    obtain rfl : p = last := by simpa using hwalk.getLast?
    exact exists_instruction_of_isReturn hreturn
  | cons q v => exact exists_instruction_of_leads hwalk.rel_of_append

/-- A return is met at the end of a walk only. -/
theorem last_notMem_dropLast {p last : Nat} {w : List Nat} (h : Walk (Leads m) p last w)
    (hreturn : isReturn m last = true) : last ∉ w.dropLast := by
  intro hmem
  obtain ⟨t, rfl⟩ := List.getLast?_eq_some_iff.1 h.getLast?
  rw [List.dropLast_concat] at hmem
  obtain ⟨u, v, rfl⟩ := List.append_of_mem hmem
  obtain ⟨q, t, hqt⟩ : ∃ q t, v ++ [last] = q :: t := List.exists_cons_of_ne_nil (by simp)
  rw [List.append_assoc, List.cons_append, hqt] at h
  exact not_leads_of_isReturn hreturn h.rel_of_append

/-! ## The graph of a method -/

theorem method_of_ofMethod (h : ofMethod m = .ok c) : c.method = m := by
  rw [ofMethod] at h
  split at h
  · cases h
  · split at h
    · cases h
    · cases h
      rfl

/-- **The control-flow graph of a body in order is complete**: there is
room for every position. -/
theorem complete_of_ofMethod (hm : m.body.WellFormed) (h : ofMethod m = .ok c) :
    c.method = m ∧ c.graph.root = 0 ∧
      explore (successors m) m.body.length [0] [] = .complete c.graph.adjacency := by
  rw [ofMethod] at h
  split at h
  · cases h
  rename_i hne
  have hpos : 0 < m.body.length := by
    rw [List.length_pos_iff]
    intro hnil
    exact hne (by rw [hnil]; rfl)
  have hroom : ∀ all n, explore (successors m) m.body.length [0] [] ≠ .full all n :=
    explore_ne_full (List.range m.body.length)
      (fun p _ heads hheads => successors_subset hm hheads) (Explored.nil [0])
      (List.nil_subset _) (List.cons_subset.2 ⟨List.mem_range.2 hpos, List.nil_subset _⟩)
      (by simp)
  cases hexplore : explore (successors m) m.body.length [0] [] with
  | complete all =>
    rw [hexplore] at h
    cases h
    exact ⟨rfl, rfl, rfl⟩
  | failed all p e =>
    rw [hexplore] at h
    cases h
  | full all p => exact absurd hexplore (hroom all p)

/-- Control goes as the table says, in which each position has its line. -/
def follows (m : Method) (table : List (List Nat)) : Bool :=
  !table.isEmpty && table.length == m.body.length &&
    (List.range table.length).all fun p =>
      (successors m p).toOption == some (table.getD p [])

/-- The graph of a method whose control goes as a table says. -/
theorem ofMethod_of_follows {table : List (List Nat)} (adjacency : Adjacency Nat)
    (h : follows m table = true)
    (hexplore : explore (fun p => (.ok (table.getD p []) : Except FlowError (List Nat)))
      table.length [0] [] = .complete adjacency) :
    ofMethod m = .ok ⟨m, ⟨0, adjacency⟩⟩ := by
  obtain ⟨h, hall⟩ := Bool.and_eq_true_iff.1 h
  obtain ⟨hne, hlength⟩ := Bool.and_eq_true_iff.1 h
  have hlength : table.length = m.body.length := eq_of_beq hlength
  have hheads : successors m = fun p => .ok (table.getD p []) := by
    funext p
    by_cases hp : p < table.length
    · exact toOption_eq_some.1 (eq_of_beq (List.all_eq_true.1 hall p (List.mem_range.2 hp)))
    · have hout : m.body[p]? = none := List.getElem?_eq_none (by omega)
      have hdefault : table.getD p [] = [] := by
        rw [List.getD_eq_getElem?_getD, List.getElem?_eq_none (by omega)]
        rfl
      rw [successors, hout, hdefault]
  have hbody : ¬ m.body.isEmpty = true := by
    rw [List.isEmpty_iff_length_eq_zero, ← hlength, ← List.isEmpty_iff_length_eq_zero]
    simpa using hne
  rw [ofMethod, if_neg hbody, hheads, ← hlength, hexplore]
  rfl

section Graph

variable (hm : m.body.WellFormed) (hc : ofMethod m = .ok c)

include hm hc

/-- The graph of a method is in order. -/
theorem closed_of_ofMethod : c.graph.Closed := by
  obtain ⟨-, hroot, hcomplete⟩ := complete_of_ofMethod hm hc
  have hclosed := Digraph.closed_of_complete hcomplete
  rwa [← hroot] at hclosed

/-- The entry belongs to the graph. -/
theorem entry_mem_nodes : 0 ∈ c.graph.nodes :=
  (complete_of_ofMethod hm hc).2.1 ▸ (closed_of_ofMethod hm hc).root_mem

/-- The heads of a position are its successors. -/
theorem successors_eq_headsOf {p : Nat} (hp : p ∈ c.graph.nodes) :
    successors m p = .ok (c.graph.headsOf p) :=
  Digraph.heads_eq_ok_of_complete (complete_of_ofMethod hm hc).2.2 hp

/-- The edges of the graph are the ways that control may go. -/
theorem edge_iff_leads {p q : Nat} (hp : p ∈ c.graph.nodes) :
    c.graph.Edge p q ↔ Leads m p q := by
  have hheads := successors_eq_headsOf hm hc hp
  constructor
  · intro hq
    exact ⟨_, hheads, hq⟩
  · rintro ⟨heads, hheads', hq⟩
    rw [hheads] at hheads'
    cases hheads'
    exact hq

/-- Walks of control from a position of the graph are walks of the
graph. -/
theorem walk_edge_iff {p last : Nat} {w : List Nat} (hp : p ∈ c.graph.nodes) :
    Walk c.graph.Edge p last w ↔ Walk (Leads m) p last w := by
  constructor
  · intro h
    refine h.imp fun p _ q hedge => ?_
    exact (edge_iff_leads hm hc (Digraph.mem_nodes_of_mem_headsOf hedge)).1 hedge
  · intro h
    have hnodes : ∀ q ∈ w, q ∈ c.graph.nodes := h.forall_of_forall_step hp fun p q hp hpq =>
      (closed_of_ofMethod hm hc).head_mem p q ((edge_iff_leads hm hc hp).2 hpq)
    exact h.imp fun p hp q hpq => (edge_iff_leads hm hc (hnodes p hp)).2 hpq

/-- **The enumerated paths are the executions that meet no position more
than twice.** -/
theorem mem_paths_iff {w : List Nat} :
    w ∈ c.paths ↔ IsExecution m w ∧ ∀ p, w.count p ≤ 2 := by
  have hclosed := closed_of_ofMethod hm hc
  have hentry := entry_mem_nodes hm hc
  obtain ⟨hmethod, hroot, -⟩ := complete_of_ofMethod hm hc
  rw [paths, List.mem_flatMap]
  constructor
  · rintro ⟨last, hlast, hw⟩
    obtain ⟨-, hreturn⟩ := List.mem_filter.1 hlast
    rw [hroot, Digraph.mem_pathsWithin_full hclosed hentry] at hw
    obtain ⟨hwalk, -, hcount⟩ := hw
    exact ⟨⟨last, (walk_edge_iff hm hc hentry).1 hwalk, hmethod ▸ hreturn⟩, hcount⟩
  · rintro ⟨⟨last, hwalk, hreturn⟩, hcount⟩
    have hedges := (walk_edge_iff hm hc hentry).2 hwalk
    have hnode := Digraph.mem_nodes_of_walk hclosed hentry hedges last hedges.last_mem
    refine ⟨last, List.mem_filter.2 ⟨hnode, hmethod ▸ hreturn⟩, ?_⟩
    rw [hroot, Digraph.mem_pathsWithin_full hclosed hentry]
    exact ⟨hedges, last_notMem_dropLast hwalk hreturn, hcount⟩

/-- **Two pieces without a lap make up an enumerated path**: a way from
the entry and a way to a return, joined at a position. -/
theorem append_mem_paths {p last : Nat} {u v : List Nat} (hu : Walk (Leads m) 0 p (u ++ [p]))
    (hunodup : u.Nodup) (hv : Walk (Leads m) p last v) (hvnodup : v.Nodup)
    (hreturn : isReturn m last = true) : u ++ v ∈ c.paths :=
  (mem_paths_iff hm hc).2
    ⟨⟨last, hu.join hv, hreturn⟩, Walk.count_append_le_two hunodup hvnodup⟩

end Graph

end SmellCheck.ControlFlow
