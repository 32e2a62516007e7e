import SmellCheck.Proofs.Digraph.Reach
import SmellCheck.Proofs.Flow.Consumption
/-!
# Where values come from

On a path that is replayed every value is made from earlier ones: what is
on the stack, what the slots hold and what a value was made from are
numbers that were given before (`Grounded`). The value graph of the path
has therefore no cycle. It also has every value in it: a value that
nothing was made from hangs below the root, and from any other value the
way up, from a value to one that was made from it, leads to larger and
larger numbers and ends at such a one (`reachable_of_grounded`).
-/

namespace SmellCheck

open Relation

namespace Replay

variable {m : Method} {ins : Instruction} {r r' s : Replay} {position : Nat} {id : ValueId}

/-! ## Earlier values -/

/-- The number is that of a value. -/
def Names (r : Replay) (id : ValueId) : Prop :=
  0 < id ∧ id ≤ r.values.length

theorem names_iff : r.Names id ↔ ∃ v, r.value? id = some v :=
  ⟨fun h => exists_value? h.1 h.2, fun ⟨_, hv⟩ => value?_eq_some hv⟩

/-- A number that was given stays one. -/
theorem Names.step (h : r.Names id) (hstep : Replay.step m position ins r = .ok r') :
    r'.Names id :=
  ⟨h.1, Nat.le_trans h.2 (length_values_le_of_step hstep)⟩

/-- **Everything comes from earlier values**: the stack is in order, slots
hold values, and the parents of a value were there before it. -/
structure Grounded (r : Replay) : Prop where
  sound : Sound r
  written : ∀ w ∈ r.writes, r.Names w.value
  parents : ∀ id v, r.value? id = some v → ∀ p ∈ v.parents, 0 < p ∧ p < id

theorem grounded_empty : Grounded {} where
  sound := sound_empty
  written _ hw := absurd hw List.not_mem_nil
  parents id v hv := by cases id <;> cases hv

/-- What a step writes to slots is one of its operands or new. -/
theorem value_of_mem_slotWrites {w : SlotWrite} (hw : w ∈ slotWrites m ins r) :
    w.value ∈ operands m ins r ∨
      r.values.length < w.value ∧ w.value ≤ r.values.length + pushCount ins +
        (writtenOperands ins (operands m ins r)).length := by
  rcases List.mem_append.1 hw with hw | hw
  · left
    unfold storeWrites at hw
    split at hw
    · rename_i hoperands
      rw [List.mem_singleton.1 hw, hoperands]
      exact List.mem_cons_self
    · exact absurd hw List.not_mem_nil
  · right
    obtain ⟨⟨argument, id⟩, hmem, hslot⟩ := List.mem_filterMap.1 hw
    obtain ⟨slot, -, rfl⟩ := Option.map_eq_some_iff.1 hslot
    have hle : r.values.length + pushCount ins < id := List.le_snd_of_mem_zipIdx hmem
    have hlt := List.snd_lt_add_of_mem_zipIdx hmem
    rw [Nat.add_right_comm] at hlt
    exact ⟨Nat.lt_of_le_of_lt (Nat.le_add_right _ _) hle, Nat.le_of_lt_succ hlt⟩

namespace Grounded

theorem names_of_mem_operands (hr : Grounded r) (h : id ∈ operands m ins r) : r.Names id :=
  ⟨hr.sound.pos id (mem_stack_of_mem_operands h), hr.sound.le id (mem_stack_of_mem_operands h)⟩

theorem names_of_mem_inputs (hr : Grounded r) (h : id ∈ inputs m ins r) : r.Names id :=
  hr.names_of_mem_operands (mem_operands_of_mem_taking h)

/-- What is pushed is made from what was there. -/
theorem names_of_mem_pushedParents (hr : Grounded r)
    (h : id ∈ pushedParents ins (inputs m ins r) r) : r.Names id := by
  unfold pushedParents at h
  split at h
  · -- a load reads a write
    obtain ⟨w, hw, rfl⟩ := Option.map_eq_some_iff.1 (Option.mem_toList.1 h)
    exact hr.written w (List.mem_of_find?_eq_some hw)
  · exact absurd h List.not_mem_nil
  · exact hr.names_of_mem_inputs h

/-- **A step makes values from earlier ones.** -/
theorem step (hr : Grounded r) (h : Replay.step m position ins r = .ok r') : Grounded r' where
  sound := hr.sound.step h
  written w hw := by
    rw [step_writes h hr.sound.le] at hw
    rcases List.mem_append.1 hw with hw | hw
    · rcases value_of_mem_slotWrites (List.mem_reverse.1 hw) with hold | ⟨hlt, hle⟩
      · exact (hr.names_of_mem_operands hold).step h
      · exact ⟨Nat.zero_lt_of_lt hlt, by rw [length_step_values h]; exact hle⟩
    · exact (hr.written w hw).step h
  parents id v hv p hp := by
    rcases Nat.lt_or_ge r.values.length id with hlt | hle
    · -- the parents of a new value were there before the step
      have hnames : r.Names p := by
        rcases Nat.lt_or_ge (r.values.length + pushCount ins) id with hwritten | hpushed
        · rw [value?_step_of_written h hwritten (value?_eq_some hv).2] at hv
          cases hv
          exact hr.names_of_mem_inputs hp
        · rw [value?_step_of_pushed h hlt hpushed] at hv
          cases hv
          exact hr.names_of_mem_pushedParents hp
      exact ⟨hnames.1, Nat.lt_of_le_of_lt hnames.2 hlt⟩
    · rw [value?_step_of_le h hle] at hv
      obtain ⟨v', hv', rfl⟩ := Option.map_eq_some_iff.1 hv
      rw [marked_parents] at hp
      exact hr.parents id v' hv' p hp

end Grounded

/-- **A path that is replayed makes values from earlier ones.** -/
theorem grounded_of_run {path : List Nat} (h : run m path = .ok r) : Grounded r :=
  ((trace_of_steps (steps_of_run h)).invariant grounded_empty fun _ hstep hr => hr.step hstep).2

end Replay

namespace ValueGraph

open Replay

variable {m : Method} {r : Replay} {path : List Nat} {id k : ValueId} {v : Value}

/-! ## The heads of the graph -/

theorem pairwise_terminal (values : List Value) : (terminal values).Pairwise (· < ·) := by
  refine List.Pairwise.sublist List.filter_sublist ?_
  rw [List.pairwise_map]
  exact List.pairwise_lt_range.imp Nat.succ_lt_succ

theorem mem_terminal : id ∈ terminal r.values ↔
    r.Names id ∧ ∀ j v, r.value? j = some v → id ∉ v.parents := by
  have hnumber : id ∈ (List.range r.values.length).map (· + 1) ↔ r.Names id := by
    rw [List.mem_map]
    constructor
    · rintro ⟨k, hk, rfl⟩
      exact ⟨Nat.succ_pos k, List.mem_range.1 hk⟩
    · rintro ⟨hpos, hle⟩
      obtain ⟨k, rfl⟩ := Nat.exists_eq_succ_of_ne_zero (Nat.ne_of_gt hpos)
      exact ⟨k, List.mem_range.2 hle, rfl⟩
  have hparent : (!r.values.any fun v => v.parents.contains id) = true ↔
      ∀ j v, r.value? j = some v → id ∉ v.parents := by
    simp only [Bool.not_eq_true', List.any_eq_false, List.contains_iff_mem]
    constructor
    · intro hall j v hv
      cases j with
      | zero => cases hv
      | succ j => exact hall v (List.mem_of_getElem? hv)
    · intro hall v hv
      obtain ⟨j, hj⟩ := List.mem_iff_getElem?.1 hv
      exact hall (j + 1) v hj
  rw [terminal, List.mem_filter, hnumber, hparent]

theorem parentsIn_of_value? (h : r.value? id = some v) : parentsIn r.values id = v.parents := by
  cases id with
  | zero => cases h
  | succ j =>
    have hj : r.values[j]? = some v := h
    simp only [parentsIn, hj]

/-- What a number leads to: the root to what nothing was made from, and a
value to its parents. -/
theorem mem_parentsIn : k ∈ parentsIn r.values id ↔
    id = rootId ∧ k ∈ terminal r.values ∨ ∃ v, r.value? id = some v ∧ k ∈ v.parents := by
  cases id with
  | zero => simp [parentsIn, rootId, Replay.value?]
  | succ j =>
    rw [parentsIn, Replay.value?]
    cases r.values[j]? <;> simp [rootId]

section Grounded

variable (hr : r.Grounded)

include hr

/-- Nothing leads out of the numbers up to the last one, or to the root. -/
theorem names_of_mem_parentsIn (h : k ∈ parentsIn r.values id) : r.Names k := by
  rcases mem_parentsIn.1 h with ⟨-, hk⟩ | ⟨v, hv, hk⟩
  · exact (mem_terminal.1 hk).1
  · obtain ⟨hpos, hlt⟩ := hr.parents id v hv k hk
    exact ⟨hpos, Nat.le_trans (Nat.le_of_lt hlt) (value?_eq_some hv).2⟩

/-- **Every value hangs below the root.** -/
theorem reachable_of_grounded (hid : r.Names id) :
    ReflTransGen (fun a b => b ∈ parentsIn r.values a) rootId id := by
  -- downwards from the last number: what a value was made into has a larger one
  induction hrest : r.values.length - id using Nat.strongRecOn generalizing id with
  | ind rest ih =>
    by_cases hterminal : id ∈ terminal r.values
    · exact .single (mem_parentsIn.2 (Or.inl ⟨rfl, hterminal⟩))
    · obtain ⟨j, v, hv, hmem⟩ : ∃ j v, r.value? j = some v ∧ id ∈ v.parents := by
        by_contra hnone
        exact hterminal (mem_terminal.2 ⟨hid, fun j v hv hmem => hnone ⟨j, v, hv, hmem⟩⟩)
      have hj := names_iff.2 ⟨v, hv⟩
      have hlt := (hr.parents j v hv id hmem).2
      have hfewer : r.values.length - j < rest :=
        hrest ▸ Nat.sub_lt_sub_left (Nat.lt_of_lt_of_le hlt hj.2) hlt
      exact (ih _ hfewer hj rfl).tail (mem_parentsIn.2 (Or.inr ⟨v, hv, hmem⟩))

/-! ## The graph -/

/-- The numbers of the root and of the values are a space that no parent
leaves. -/
theorem enclosure_of_grounded : Digraph.Enclosure (parentsIn r.values) (r.values.length + 1) rootId
    (List.range (r.values.length + 1)) where
  root_mem := List.mem_range.2 (Nat.succ_pos _)
  heads_subset _ _ _ hk := List.mem_range.2 (Nat.lt_succ_of_le (names_of_mem_parentsIn hr hk).2)
  length_le := Nat.le_of_eq List.length_range

/-- **The graph has the root and all values.** -/
theorem mem_nodes_ofReplay (path : List Nat) :
    id ∈ (ofReplay path r).graph.nodes ↔ id = rootId ∨ r.Names id := by
  refine (enclosure_of_grounded hr).mem_nodes.trans ⟨fun h => ?_, fun h => ?_⟩
  · rcases ReflTransGen.cases_tail h with rfl | ⟨j, -, hstep⟩
    · exact Or.inl rfl
    · exact Or.inr (names_of_mem_parentsIn hr hstep)
  · rcases h with rfl | hid
    · exact .refl
    · exact reachable_of_grounded hr hid

theorem order_ofReplay (path : List Nat) :
    (ofReplay path r).graph.order = r.values.length + 1 := by
  have hperm : (ofReplay path r).graph.nodes.Perm (List.range (r.values.length + 1)) := by
    refine (List.perm_ext_iff_of_nodup (enclosure_of_grounded hr).closed.nodup
      List.nodup_range).2 fun k => ?_
    rw [List.mem_range, Nat.lt_succ_iff]
    refine (mem_nodes_ofReplay hr path).trans ?_
    constructor
    · rintro (rfl | hk)
      · exact Nat.zero_le _
      · exact hk.2
    · intro hk
      exact (Nat.eq_zero_or_pos k).imp_right fun hpos => ⟨hpos, hk⟩
  calc (ofReplay path r).graph.order
      = (ofReplay path r).graph.nodes.length := (List.length_map _).symm
    _ = r.values.length + 1 := by rw [hperm.length_eq, List.length_range]

theorem headsOf_ofReplay (path : List Nat) (hid : id = rootId ∨ r.Names id) :
    (ofReplay path r).graph.headsOf id = parentsIn r.values id :=
  (enclosure_of_grounded hr).headsOf_eq ((mem_nodes_ofReplay hr path).2 hid)

/-- An edge leads to a value, from the root or from a later value. -/
theorem lt_of_edge (h : (ofReplay path r).graph.Edge id k) :
    r.Names k ∧ (id = rootId ∨ k < id) := by
  have hid := (mem_nodes_ofReplay hr path).1 (Digraph.mem_nodes_of_mem_headsOf h)
  rw [Digraph.Edge, headsOf_ofReplay hr path hid] at h
  refine ⟨names_of_mem_parentsIn hr h, ?_⟩
  rcases mem_parentsIn.1 h with ⟨hroot, -⟩ | ⟨v, hv, hmem⟩
  · exact Or.inl hroot
  · exact Or.inr (hr.parents id v hv k hmem).2

/-- **So does any way through the graph.** -/
theorem lt_of_transGen (h : TransGen (ofReplay path r).graph.Edge id k) :
    r.Names k ∧ (id = rootId ∨ k < id) := by
  induction h with
  | single hedge => exact lt_of_edge hr hedge
  | tail _ hedge ih =>
    obtain ⟨hnames, hroot | hlt⟩ := lt_of_edge hr hedge
    · -- nothing leads to the root, so no way goes on from it
      rw [hroot] at ih
      exact absurd ih.1.1 (Nat.lt_irrefl 0)
    · exact ⟨hnames, ih.2.imp_right (Nat.lt_trans hlt)⟩

end Grounded

/-! ## The graph of a path -/

/-- **A rooted acyclic graph of all values**, which leads from each value
to those that it was made from. -/
structure IsProvenance (vg : ValueGraph) : Prop where
  /-- A value is made from earlier values. -/
  parent_lt : ∀ (k : ValueId) v, vg.value? k = some v → ∀ p ∈ v.parents, rootId < p ∧ p < k
  /-- The graph starts at the root. -/
  root_eq : vg.graph.root = rootId
  /-- A value leads to its parents. -/
  headsOf_value : ∀ (k : ValueId) v, vg.value? k = some v → vg.graph.headsOf k = v.parents
  /-- The root leads to the values that are no value's parent. -/
  mem_headsOf_root : ∀ k : ValueId, k ∈ vg.graph.headsOf rootId ↔
    (∃ v, vg.value? k = some v) ∧ ∀ (j : ValueId) v, vg.value? j = some v → k ∉ v.parents
  /-- It leads to them in the order of their numbers. -/
  sorted_headsOf_root : (vg.graph.headsOf rootId).Pairwise (· < ·)
  /-- Nothing leads to the root. -/
  root_notMem : ∀ k, rootId ∉ vg.graph.headsOf k
  /-- The nodes are the root and the values. -/
  mem_nodes : ∀ k : ValueId, k ∈ vg.graph.nodes ↔ vg.hasId k = true
  /-- There is one node for each value, and one for the root. -/
  order_eq : vg.graph.order = vg.values.length + 1
  /-- Every value is reachable from the root. -/
  reachable : ∀ k : ValueId, vg.hasId k = true → ReflTransGen vg.graph.Edge rootId k
  /-- No way through the graph comes back to where it started. -/
  acyclic : ∀ k, ¬ TransGen vg.graph.Edge k k

theorem hasId_ofReplay (path : List Nat) (r : Replay) (id : ValueId) :
    (ofReplay path r).hasId id = true ↔ id = rootId ∨ r.Names id := by
  rw [hasId, value?_ofReplay, Bool.or_eq_true, beq_iff_eq, Int.natCast_eq_zero,
    Option.isSome_iff_exists, names_iff]
  rfl

/-- **The value graph of a path is rooted and acyclic and loses no
value** that its replay made. -/
theorem isProvenance_ofReplay (h : run m path = .ok r) :
    (ofReplay path r).path = path ∧ (ofReplay path r).values = r.values ∧
      (ofReplay path r).IsProvenance := by
  refine ⟨rfl, rfl, ?_⟩
  have hr := grounded_of_run h
  have hroot := headsOf_ofReplay hr path (Or.inl rfl)
  have hvalue : ∀ (k : ValueId) v, (ofReplay path r).value? k = some v → r.value? k = some v :=
    fun k v hv => value?_ofReplay path r k ▸ hv
  refine ⟨fun k v hv => hr.parents k v (hvalue k v hv), rfl, fun k v hv => ?_, fun k => ?_, ?_,
    fun k hk => ?_, fun k => ?_, order_ofReplay hr path, fun k hk => ?_, fun k hk => ?_⟩
  · rw [headsOf_ofReplay hr path (Or.inr (names_iff.2 ⟨v, hvalue k v hv⟩)),
      parentsIn_of_value? (hvalue k v hv)]
  · rw [hroot]
    simp only [value?_ofReplay, ← names_iff]
    exact mem_terminal
  · rw [hroot]
    exact pairwise_terminal r.values
  · exact absurd (lt_of_edge hr hk).1.1 (Nat.lt_irrefl 0)
  · rw [mem_nodes_ofReplay hr path, hasId_ofReplay]
  · have hnode := (mem_nodes_ofReplay hr path).2 ((hasId_ofReplay path r k).1 hk)
    have hspace := enclosure_of_grounded hr
    exact (hspace.reflTransGen_edge hspace.closed.root_mem).2 (hspace.mem_nodes.1 hnode)
  · obtain ⟨hnames, rfl | hlt⟩ := lt_of_transGen hr hk
    · exact Nat.lt_irrefl 0 hnames.1
    · exact Nat.lt_irrefl k hlt

/-- A sum that is stored in a slot, which a call then writes. -/
def overwriteListing : ListingDocument :=
  Assembly.testDocument 1 [("void T::M()",
    "ldc.i4.1\ndup\nadd\nstloc.0\nldloca.s 0\ncall void S::Set(out int32&)\nret")]

/-- The reference to the slot and what the call wrote hang below the root,
and all the others below the reference. -/
theorem isProvenance_ofReplay_overwriteListing :
    ∃ a m r, Assembly.ofDocument overwriteListing = .ok a ∧ m ∈ a.methods ∧
      run m (List.range 7) = .ok r ∧
      r.values.map (·.parents) = [[], [1], [1], [2, 3], [4], []] ∧
      (ofReplay (List.range 7) r).graph.headsOf rootId = [5, 6] ∧
      (ofReplay (List.range 7) r).graph.order = 7 ∧
      (ofReplay (List.range 7) r).values = r.values ∧
      (ofReplay (List.range 7) r).IsProvenance := by
  obtain ⟨a, m, ha, hm, h⟩ := Assembly.exists_method_of_any overwriteListing (fun m =>
    (run m (List.range 7)).toOption.any fun r =>
      r.values.map (·.parents) == [[], [1], [1], [2, 3], [4], []] &&
        terminal r.values == [5, 6]) (by decide +kernel)
  obtain ⟨r, hr, h⟩ := (Option.any_eq_true _ _).1 h
  obtain ⟨hparents, hterminal⟩ := Bool.and_eq_true_iff.1 h
  have hr := toOption_eq_some.1 hr
  have hparents := eq_of_beq hparents
  have hlength : r.values.length = 6 := by simpa using congrArg List.length hparents
  obtain ⟨-, hvalues, hgraph⟩ := isProvenance_ofReplay hr
  refine ⟨a, m, r, ha, hm, hr, hparents, ?_, ?_, hvalues, hgraph⟩
  · rw [headsOf_ofReplay (grounded_of_run hr) _ (Or.inl rfl)]
    exact eq_of_beq hterminal
  · rw [hgraph.order_eq]
    exact congrArg (· + 1) hlength

end ValueGraph

end SmellCheck
