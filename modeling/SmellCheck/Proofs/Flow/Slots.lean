import SmellCheck.Proofs.Assembly.Load
import SmellCheck.Proofs.Flow.Visits
/-!
# What a slot holds

A load pushes one value, whose parent is what was last written to the
slot before, if anything was. The writes of a visit are those of a store,
and behind a call those through the arguments for reference parameters: a
new value of the call goes to each slot from which such an argument was
loaded. Locals and arguments are two spaces of slots.

The log of a replay is therefore the writes of its visits
(`Trace.writes_eq`), and a load reads it from its end. A value that was
pushed by a load has a slot of the method behind it, since a load without
one cannot be replayed (`LoadsReady`), so no write through a reference is
lost.
-/

namespace SmellCheck

/-- How an instruction touches a slot, by its mnemonic. -/
def SlotAccess.ofMnemonic? (name : String) : Option SlotAccess :=
  if "ldloc".toList.isPrefixOf name.toList then some ⟨.load, .locals⟩
  else if "ldarg".toList.isPrefixOf name.toList then some ⟨.load, .args⟩
  else if "stloc".toList.isPrefixOf name.toList then some ⟨.store, .locals⟩
  else if "starg".toList.isPrefixOf name.toList then some ⟨.store, .args⟩
  else none

/-- The table of opcodes says what the mnemonics say. -/
theorem Opcode.slot_eq_ofMnemonic? {op : Opcode} (h : op ∈ all) :
    op.slot = SlotAccess.ofMnemonic? op.name := by
  have table : ∀ op ∈ all, op.slot = SlotAccess.ofMnemonic? op.name := by
    decide +kernel
  exact table op h

/-- Where a value comes from: its producer and its parents. -/
def Value.lineage (v : Value) : Nat × List ValueId :=
  (v.producer, v.parents)

namespace Replay

variable {m : Method} {ins : Instruction} {r r' s : Replay} {position : Nat} {id : ValueId}

/-! ## The writes of a visit -/

/-- The slot that an instruction loads from. -/
def loadedSlot? (ins : Instruction) : Option (SlotSpace × Nat) :=
  match SlotAccess.ofMnemonic? ins.opcode.name, ins.slotIndex? with
  | some ⟨.load, space⟩, some index => some (space, index)
  | _, _ => none

/-- The slot that a value was loaded from, if a load pushed it. -/
def Visit.origin? (m : Method) (v : Visit) (id : ValueId) : Option (SlotSpace × Nat) :=
  (v.state.value? id).bind fun x => m.body[x.producer]?.bind loadedSlot?

/-- What a visit stores. -/
def Visit.stores (m : Method) (v : Visit) : List SlotWrite :=
  match SlotAccess.ofMnemonic? v.ins.opcode.name, v.ins.slotIndex?, v.operands m with
  | some ⟨.store, space⟩, some index, [id] => [⟨space, index, id⟩]
  | _, _, _ => []

/-- The operands of a visit that are for reference parameters, in
order. -/
def Visit.references (m : Method) (v : Visit) : List ValueId :=
  ((v.operands m).zipIdx.filter fun a => (parameter? v.ins a.2).any (·.isByRef)).map (·.1)

/-- What is written behind a call: one new value for each reference,
numbered after what the call pushes, to the slot of the reference. -/
def Visit.writeBacks (m : Method) (v : Visit) : List SlotWrite :=
  ((v.references m).zipIdx (v.state.values.length + pushCount v.ins + 1)).filterMap
    fun (argument, id) => (v.origin? m argument).map fun (space, index) => ⟨space, index, id⟩

/-- The writes of a visit, in order. -/
def Visit.writes (m : Method) (v : Visit) : List SlotWrite :=
  v.stores m ++ v.writeBacks m

/-- The value that was last written to a slot. -/
def lastWrite? (writes : List SlotWrite) (space : SlotSpace) (index : Nat) : Option ValueId :=
  (writes.reverse.find? fun w => w.space == space && w.index == index).map (·.value)

/-! ## Stores and references -/

/-- A load takes nothing and pushes one value. -/
theorem counts_of_load (hins : ins.opcode ∈ Opcode.all) {space : SlotSpace}
    (hslot : ins.opcode.slot = some ⟨.load, space⟩) : popCount m ins = 0 ∧ pushCount ins = 1 := by
  obtain ⟨hpop, hpush, hret, -⟩ := Opcode.of_slot_load hins hslot
  simp only [popCount, pushCount, hret, hpop, hpush]
  exact ⟨rfl, trivial⟩

/-- A store takes one operand. -/
theorem popCount_of_store (hins : ins.opcode ∈ Opcode.all) {space : SlotSpace}
    (hslot : ins.opcode.slot = some ⟨.store, space⟩) : popCount m ins = 1 := by
  obtain ⟨hpop, -, hret, -⟩ := Opcode.of_slot_store hins hslot
  simp only [popCount, hret, hpop]
  rfl

theorem stores_eq {v : Visit} (hins : v.ins.WellFormed m.body)
    (hpops : popCount m v.ins ≤ v.state.stack.length) :
    v.stores m = storeWrites v.ins (v.operands m) := by
  unfold Visit.stores storeWrites
  rw [← Opcode.slot_eq_ofMnemonic? hins.opcode_mem]
  cases hslot : v.ins.opcode.slot with
  | none => rfl
  | some access =>
    obtain ⟨use, space⟩ := access
    cases use with
    | load => rfl
    | store =>
      have hlength : (v.operands m).length = 1 := by
        rw [← popCount_of_store hins.opcode_mem hslot]
        exact length_operands hpops
      obtain ⟨id, hid⟩ := List.length_eq_one_iff.1 hlength
      rw [hid]
      cases v.ins.slotIndex? <;> rfl

/-- The references are the arguments through which the callee writes. -/
theorem references_eq (v : Visit) : v.references m = writtenOperands v.ins (v.operands m) := by
  rw [Visit.references]
  cases hcallee : v.ins.method? with
  | none => simp [writtenOperands, parameter?, hcallee]
  | some callee =>
    simp only [writtenOperands, hcallee, writtenArguments]
    by_cases hreceiver : passesReceiver v.ins.opcode callee = true
    · -- the receiver stands before the arguments
      have hfirst : parameter? v.ins 0 = none := by
        simp only [parameter?, hcallee, Option.bind_some, if_pos hreceiver]
      have hrest : ∀ k, parameter? v.ins (1 + k) = callee.params[k]? := by
        intro k
        rw [Nat.add_comm]
        simp only [parameter?, hcallee, Option.bind_some, if_pos hreceiver]
      rw [if_pos hreceiver]
      cases v.operands m with
      | nil => rfl
      | cons id ids =>
        simp only [List.zipIdx_cons, List.filter_cons, hfirst, Option.any_none, Nat.zero_add]
        exact map_filter_zipIdx hrest _
    · have hall : ∀ k, parameter? v.ins (0 + k) = callee.params[k]? := by
        intro k
        simp only [parameter?, hcallee, Option.bind_some, if_neg hreceiver, Nat.zero_add]
      rw [if_neg hreceiver]
      exact map_filter_zipIdx hall _

/-! ## The origin of a reference -/

/-- Every value that a load pushed has a slot of the method behind it. -/
def LoadsReady (m : Method) (r : Replay) : Prop :=
  ∀ id x, r.value? id = some x → ∀ ins, m.body[x.producer]? = some ins → SlotReady m ins .load

theorem loadsReady_empty : LoadsReady m {} := by
  intro id x hx
  cases id <;> cases hx

/-- An instruction that creates a value has its slot, if it is a load. -/
theorem slotReady_of_step (hins : ins.WellFormed m.body) (h : step m position ins r = .ok r')
    (hlt : r.values.length < r'.values.length) : SlotReady m ins .load := by
  rcases Nat.eq_zero_or_pos (pushCount ins) with hzero | hpos
  · -- only a call creates values without a push, and a call touches no slot
    have hwritten : writtenOperands ins (operands m ins r) ≠ [] := by
      intro hnil
      rw [length_step_values h, hzero, hnil] at hlt
      exact Nat.lt_irrefl _ hlt
    intro space hslot
    cases hcallee : ins.method? with
    | none =>
      refine absurd ?_ hwritten
      simp only [writtenOperands, hcallee]
    | some callee =>
      obtain ⟨hnone, -⟩ := Opcode.of_operand_method hins.opcode_mem
        (Instruction.operand_eq_method hins.operand_admitted hcallee)
      rw [hnone] at hslot
      cases hslot
  · exact (step_isOk_iff.1 ⟨r', h⟩).1.load_ready hpos

/-- **A step keeps a slot behind every load.** -/
theorem LoadsReady.step (hm : m.body.WellFormed) (hr : LoadsReady m r)
    (hins : m.body[position]? = some ins) (h : Replay.step m position ins r = .ok r') :
    LoadsReady m r' := by
  intro id x hx
  rcases Nat.lt_or_ge r.values.length id with hlt | hle
  · rw [(value?_step_of_gt h hlt hx).1]
    intro ins' hins'
    rw [hins] at hins'
    cases hins'
    exact slotReady_of_step (hm ins (List.mem_of_getElem? hins)) h
      (Nat.lt_of_lt_of_le hlt (value?_eq_some hx).2)
  · rw [value?_step_of_le h hle] at hx
    obtain ⟨y, hy, rfl⟩ := Option.map_eq_some_iff.1 hx
    rw [marked_producer]
    exact hr id y hy

/-- A load that has its slot loads from a slot of the method. -/
theorem loadedSlot?_eq (hins : ins.opcode ∈ Opcode.all) (hready : SlotReady m ins .load) :
    loadedSlot? ins = (ins.opcode.slot.filter (·.use == .load)).bind fun access =>
      ins.slotIndex?.bind fun index =>
        if index < m.slots access.space then some (access.space, index) else none := by
  rw [loadedSlot?, ← Opcode.slot_eq_ofMnemonic? hins]
  cases hslot : ins.opcode.slot with
  | none => rfl
  | some access =>
    obtain ⟨use, space⟩ := access
    cases use with
    | store => rfl
    | load =>
      obtain ⟨index, hindex⟩ := hready space hslot
      obtain ⟨hindex, hlt⟩ := slotIndex?_of_slotOf hindex
      rw [hindex]
      exact (if_pos hlt).symm

/-- The slot that is written is the origin of the reference. -/
theorem origin?_eq (hm : m.body.WellFormed) {v : Visit} (hv : LoadsReady m v.state)
    (id : ValueId) : v.origin? m id = addressed? m v.state id := by
  refine Option.bind_congr fun x hx => Option.bind_congr fun ins hins => ?_
  exact loadedSlot?_eq (hm ins (List.mem_of_getElem? hins)).opcode_mem (hv id x hx ins hins)

/-- **The writes of a step are those of the visit.** -/
theorem writes_eq_slotWrites (hm : m.body.WellFormed) {v : Visit}
    (hins : m.body[v.position]? = some v.ins) (hv : LoadsReady m v.state)
    (h : step m v.position v.ins v.state = .ok r') :
    v.writes m = slotWrites m v.ins v.state := by
  rw [Visit.writes, slotWrites, stores_eq (hm v.ins (List.mem_of_getElem? hins))
    (step_isOk_iff.1 ⟨r', h⟩).2, Visit.writeBacks, references_eq, writeBacks]
  simp only [origin?_eq hm hv]
  rfl

/-! ## The log of a replay -/

/-- **The log holds the writes of the visits**, the last one first. -/
theorem Trace.writes_eq (hm : m.body.WellFormed) {vs : List Visit} (h : Trace m r vs s)
    (hr : Sound r ∧ LoadsReady m r) :
    s.writes = (vs.flatMap (Visit.writes m)).reverse ++ r.writes := by
  induction h with
  | nil r => rfl
  | @cons v vs r' s hins hstep hrest ih =>
    rw [ih ⟨hr.1.step hstep, hr.2.step hm hins hstep⟩, step_writes hstep hr.1.le,
      ← writes_eq_slotWrites hm hins hr.2 hstep, List.flatMap_cons, List.reverse_append,
      List.append_assoc]

theorem lineage_marked (taking : List (ValueId × Role)) (v : Value) :
    (marked position taking id v).lineage = v.lineage := by
  rw [Value.lineage, marked_producer, marked_parents, Value.lineage]

/-- A value keeps its producer and its parents. -/
theorem Trace.lineage_of_le {vs : List Visit} (h : Trace m r vs s) (hle : id ≤ r.values.length) :
    (s.value? id).map Value.lineage = (r.value? id).map Value.lineage := by
  refine (h.invariant (I := fun t => id ≤ t.values.length ∧
    (t.value? id).map Value.lineage = (r.value? id).map Value.lineage) ⟨hle, rfl⟩ ?_).2.2
  rintro position ins t t' - hstep ⟨hle, hvalue⟩
  refine ⟨Nat.le_trans hle (length_values_le_of_step hstep), ?_⟩
  rw [value?_step_of_le hstep hle, Option.map_map, ← hvalue]
  simp only [Function.comp_def, lineage_marked]

/-- **A load reads the log**: it pushes one value, whose parent is what
the log holds for its slot. -/
theorem exists_load (hm : m.body.WellFormed) {v : Visit} {vs : List Visit}
    (h : Trace m r (v :: vs) s) {space : SlotSpace}
    (hload : SlotAccess.ofMnemonic? v.ins.opcode.name = some ⟨.load, space⟩) :
    ∃ index, v.ins.slotIndex? = some index ∧
      (∃ r', step m v.position v.ins v.state = .ok r' ∧
        r'.stack = (v.state.values.length + 1) :: v.state.stack) ∧
      (s.value? (v.state.values.length + 1)).map Value.lineage =
        some (v.position, (v.state.slotValue? space index).toList) := by
  obtain ⟨-, hins, r', hstep, hrest⟩ := h.of_cons
  have hopcode := (hm v.ins (List.mem_of_getElem? hins)).opcode_mem
  rw [← Opcode.slot_eq_ofMnemonic? hopcode] at hload
  obtain ⟨hpop, hpush⟩ := counts_of_load (m := m) hopcode hload
  obtain ⟨index, hindex⟩ :=
    (step_isOk_iff.1 ⟨r', hstep⟩).1.load_ready (by rw [hpush]; exact Nat.one_pos) space hload
  obtain ⟨hindex, -⟩ := slotIndex?_of_slotOf hindex
  refine ⟨index, hindex, ⟨r', hstep, ?_⟩, ?_⟩
  · rw [step_stack hstep, hpop, hpush]
    rfl
  · have hpushed : v.state.values.length + 1 ≤ v.state.values.length + pushCount v.ins := by
      omega
    have hle : v.state.values.length + 1 ≤ r'.values.length := by
      rw [length_step_values hstep]
      exact Nat.le_add_right_of_le hpushed
    rw [hrest.lineage_of_le hle, value?_step_of_pushed hstep (Nat.lt_succ_self _) hpushed,
      Option.map_some, Value.lineage, pushedParents, hload, hindex]

/-- **What is written back is a value of the call**, made from its
inputs. -/
theorem lineage_of_mem_writeBacks {v : Visit} {vs : List Visit} (h : Trace m r (v :: vs) s)
    {w : SlotWrite} (hw : w ∈ v.writeBacks m) :
    (s.value? w.value).map Value.lineage = some (v.position, inputs m v.ins v.state) := by
  obtain ⟨-, -, r', hstep, hrest⟩ := h.of_cons
  obtain ⟨⟨argument, id⟩, hmem, hslot⟩ := List.mem_filterMap.1 hw
  obtain ⟨slot, -, rfl⟩ := Option.map_eq_some_iff.1 hslot
  have hlt : v.state.values.length + pushCount v.ins < id := List.le_snd_of_mem_zipIdx hmem
  have hle : id ≤ r'.values.length := by
    have hcount := List.snd_lt_add_of_mem_zipIdx hmem
    rw [length_step_values hstep]
    rw [references_eq] at hcount
    exact Nat.le_of_lt_succ (by rwa [Nat.add_right_comm] at hcount)
  rw [hrest.lineage_of_le hle, value?_step_of_written hstep hlt hle, Option.map_some, Value.lineage]

/-- **A slot load sees the last write to its slot**: on a path that is
replayed, it pushes one value, whose only parent is what the visits
before it last wrote to that slot, and which has no parent if they wrote
nothing there. What a call writes through a reference is a value of that
call. -/
theorem parents_load_eq_lastWrite {d : ListingDocument} {a : Assembly}
    (ha : Assembly.ofDocument d = .ok a) (hm : m ∈ a.methods) {path : List Nat}
    (hr : run m path = .ok r) :
    (∀ before v after, visits m {} path = before ++ v :: after → ∀ space,
      SlotAccess.ofMnemonic? v.ins.opcode.name = some ⟨.load, space⟩ →
      ∃ index, v.ins.slotIndex? = some index ∧
        (∃ r', step m v.position v.ins v.state = .ok r' ∧
          r'.stack = (v.state.values.length + 1) :: v.state.stack) ∧
        (r.value? (v.state.values.length + 1)).map Value.lineage =
          some (v.position,
            (lastWrite? (before.flatMap (Visit.writes m)) space index).toList)) ∧
    ∀ v ∈ visits m {} path, ∀ w ∈ v.writeBacks m,
      (r.value? w.value).map Value.lineage = some (v.position, inputs m v.ins v.state) := by
  have hbody := Assembly.wellFormed_of_ofDocument ha hm
  have htrace : Trace m {} (visits m {} path) r := trace_of_steps (steps_of_run hr)
  constructor
  · intro before v after hvisits space hload
    rw [hvisits] at htrace
    obtain ⟨hbefore, hvisit⟩ := htrace.split
    have hlog := hbefore.writes_eq hbody ⟨sound_empty, loadsReady_empty⟩
    obtain ⟨index, hindex, hpush, hvalue⟩ := exists_load hbody hvisit hload
    refine ⟨index, hindex, hpush, ?_⟩
    rw [hvalue, slotValue?, hlog, List.append_nil, lastWrite?]
  · intro v hv w hw
    obtain ⟨before, after, hvisits⟩ := List.append_of_mem hv
    rw [hvisits] at htrace
    exact lineage_of_mem_writeBacks htrace.split.2 hw

/-- A call that writes one slot through two references. -/
def swapListing : ListingDocument :=
  Assembly.testDocument 1 [("void T::M()",
    "ldc.i4.1\nstloc.0\nldloca.s 0\nldloca.s 0\n" ++
      "call void S::Swap(ref int32&, out int32&)\nldloc.0\npop\nret")]

/-- The load behind the call sees what was written through the second
reference. -/
theorem parents_load_eq_lastWrite_swapListing :
    ∃ a m r before v after, Assembly.ofDocument swapListing = .ok a ∧ m ∈ a.methods ∧
      run m (List.range 8) = .ok r ∧
      visits m {} (List.range 8) = before ++ v :: after ∧ v.position = 5 ∧
      (r.value? 6).map (·.parents) = some [5] ∧
      (r.value? (v.state.values.length + 1)).map Value.lineage =
        some (v.position, (lastWrite? (before.flatMap (Visit.writes m)) .locals 0).toList) := by
  obtain ⟨a, m, ha, hm, h⟩ := Assembly.exists_method_of_any swapListing (fun m =>
    ((run m (List.range 8)).toOption.any fun r => (r.value? 6).map (·.parents) == some [5]) &&
    ((visits m {} (List.range 8)).drop 5).head?.any fun v =>
      v.position == 5 && v.ins.slotIndex? == some 0 &&
        SlotAccess.ofMnemonic? v.ins.opcode.name == some ⟨.load, .locals⟩) (by decide +kernel)
  obtain ⟨hrun, hvisit⟩ := Bool.and_eq_true_iff.1 h
  obtain ⟨r, hr, hparents⟩ := (Option.any_eq_true _ _).1 hrun
  obtain ⟨v, hv, hload⟩ := (Option.any_eq_true _ _).1 hvisit
  obtain ⟨hload, haccess⟩ := Bool.and_eq_true_iff.1 hload
  obtain ⟨hposition, hindex⟩ := Bool.and_eq_true_iff.1 hload
  obtain ⟨after, hafter⟩ := List.head?_eq_some_iff.1 hv
  have hvisits : visits m {} (List.range 8) =
      (visits m {} (List.range 8)).take 5 ++ v :: after := by
    rw [← hafter, List.take_append_drop]
  have hr := toOption_eq_some.1 hr
  obtain ⟨index, hindex', -, hvalue⟩ := (parents_load_eq_lastWrite ha hm hr).1 _ v after hvisits
    .locals (eq_of_beq haccess)
  rw [eq_of_beq hindex] at hindex'
  cases hindex'
  exact ⟨a, m, r, _, v, after, ha, hm, hr, hvisits, eq_of_beq hposition, eq_of_beq hparents,
    hvalue⟩

end Replay

end SmellCheck
