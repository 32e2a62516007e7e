import SmellCheck.Proofs.Flow.Height
import SmellCheck.Proofs.Flow.Visits
import Mathlib.Data.List.Flatten
import Mathlib.Data.List.Sort
/-!
# What an instruction consumes

The values that an instruction consumed on a path are read off the marks
in the table of values, in the order of their numbers. They are the
arguments of its visits and, in a tracked method, listed one visit after
the other and in each the first argument first.

A value is taken from the stack once: it is gone then, and new values get
new numbers (`Trace.nodup_operands`). So no mark is made twice, and the marks
tell the visits apart (`isArgumentOf_iff_of_trace`). The order needs more,
and fails on some executions of methods that have no tracker
(`exists_consumedAt_ne_arguments`). On every execution of a tracked method
the stack has the same height at all visits to an instruction, so the
operands of a later visit lie where those of an earlier one were, and were
pushed after it (`Trace.pairwise_operands`).
-/

namespace SmellCheck

namespace Replay

variable {m : Method} {ins : Instruction} {r r' s : Replay} {position p : Nat} {id : ValueId}

/-! ## Arguments -/

/-- The operand at the index is no argument: it is the receiver of a
call, or it is for a parameter that the callee only writes. -/
def isLeftOut (ins : Instruction) (index : Nat) : Bool :=
  isReceiver ins index || (parameter? ins index).any (·.kind == .out)

/-- The arguments among the operands of a visit. -/
def Visit.arguments (m : Method) (v : Visit) : List ValueId :=
  ((v.operands m).zipIdx.filter fun a => !isLeftOut v.ins a.2).map (·.1)

/-- The roles of a call, index by index. -/
theorem isLeftOut_eq {callee : Signature} (hcallee : ins.method? = some callee) {k : Nat}
    {role : Role} (h : (callRoles ins.opcode callee)[k]? = some role) :
    isLeftOut ins k = (role != .plain) := by
  have hkind : ∀ q : Param,
      ((if q.kind = .out then Role.outArgument else .plain) != .plain) = (q.kind == .out) := by
    intro q
    cases q.kind <;> rfl
  simp only [isLeftOut, isReceiver, parameter?, hcallee, Option.any_some, Option.bind_some]
  rw [callRoles] at h
  split at h
  · rename_i hreceiver
    rw [if_pos hreceiver]
    cases k with
    | zero =>
      cases h
      simp [hreceiver]
    | succ k =>
      rw [List.singleton_append, List.getElem?_cons_succ, List.getElem?_map] at h
      obtain ⟨q, hq, rfl⟩ := Option.map_eq_some_iff.1 h
      simp [hq, hkind]
  · rename_i hreceiver
    rw [if_neg hreceiver]
    rw [List.nil_append, List.getElem?_map] at h
    obtain ⟨q, hq, rfl⟩ := Option.map_eq_some_iff.1 h
    simp [hq, hkind, hreceiver]

/-- A call takes an operand for each role, or none at all. -/
theorem popCount_of_method {callee : Signature} (hins : ins.WellFormed m.body)
    (hcallee : ins.method? = some callee) :
    popCount m ins = (callRoles ins.opcode callee).length ∨ popCount m ins = 0 := by
  obtain ⟨-, hret, hcounts⟩ := Opcode.of_operand_method hins.opcode_mem
    (Instruction.operand_eq_method hins.operand_admitted hcallee)
  rw [popCount, if_neg (by rw [hret]; exact Bool.false_ne_true)]
  rcases hcounts with ⟨hpop, -⟩ | ⟨hpop, -⟩
  · left
    simp only [hpop, hcallee, callRoles, List.length_append, List.length_map]
    split <;> simp [Nat.add_comm]
  · right
    rw [hpop]

/-- **The arguments are the operands in a plain role.** -/
theorem arguments_eq {v : Visit} (hins : v.ins.WellFormed m.body)
    (hpops : popCount m v.ins ≤ v.state.stack.length) :
    v.arguments m = ((withRoles v.ins (v.operands m)).filter (·.2 == .plain)).map (·.1) := by
  have hlength : (v.operands m).length = popCount m v.ins := length_operands hpops
  rw [Visit.arguments]
  cases hcallee : v.ins.method? with
  | none =>
    have hplain : ∀ ids : List ValueId, ((ids.zipIdx.filter fun a => !isLeftOut v.ins a.2).map
        (·.1)) = ids := by
      intro ids
      simp [isLeftOut, isReceiver, parameter?, hcallee, List.filter_eq_self.2]
    rw [hplain, withRoles, hcallee]
    simp [List.filter_map, Function.comp_def]
  | some callee =>
    rw [withRoles, hcallee]
    rcases popCount_of_method hins hcallee with hpop | hpop
    · have hrole : ∀ a ∈ (v.operands m).zipIdx, (!isLeftOut v.ins a.2) =
          ((callRoles v.ins.opcode callee)[a.2]?).any (· == .plain) := by
        intro a ha
        have hlt : a.2 < (callRoles v.ins.opcode callee).length := by
          rw [← hpop, ← hlength]
          exact List.snd_lt_of_mem_zipIdx ha
        rw [isLeftOut_eq hcallee (List.getElem?_eq_getElem hlt), List.getElem?_eq_getElem hlt,
          Option.any_some, bne, Bool.not_not]
      rw [List.filter_congr hrole]
      exact map_filter_zipIdx (f := fun k => (callRoles v.ins.opcode callee)[k]?)
        (fun k => by rw [Nat.zero_add]) _
    · rw [List.eq_nil_of_length_eq_zero (hlength.trans hpop)]
      rfl

/-! ## Marks and visits -/

/-- The value was taken by the instruction at the position, and not as a
receiver. -/
def isArgumentOf (p : Nat) (v : Value) : Bool :=
  v.consumer == some p && !v.receiver

/-- Each operand has one role. -/
theorem eq_of_mem_withRoles {operands : List ValueId} (hnodup : operands.Nodup) {role role' : Role}
    (h : (id, role) ∈ withRoles ins operands) (h' : (id, role') ∈ withRoles ins operands) :
    role = role' := by
  have hmap := hnodup.sublist (map_fst_withRoles_sublist ins operands)
  exact congrArg Prod.snd (List.inj_on_of_nodup_map hmap h h' rfl)

theorem mem_taking_iff {operands : List ValueId} :
    id ∈ (taking (withRoles ins operands)).map (·.1) ↔
      (id, .plain) ∈ withRoles ins operands ∨ (id, .receiver) ∈ withRoles ins operands := by
  simp only [taking, List.mem_map, List.mem_filter]
  constructor
  · rintro ⟨⟨id, role⟩, ⟨hmem, hrole⟩, rfl⟩
    cases role with
    | plain => exact Or.inl hmem
    | receiver => exact Or.inr hmem
    | outArgument => cases hrole
  · rintro (h | h)
    · exact ⟨_, ⟨h, rfl⟩, rfl⟩
    · exact ⟨_, ⟨h, rfl⟩, rfl⟩

section Step

variable {v : Visit} (hr : Sound v.state) (hins : v.ins.WellFormed m.body)
variable (h : step m v.position v.ins v.state = .ok r')

include hr

theorem nodup_operands : (v.operands m).Nodup :=
  hr.sorted_operands.imp Nat.ne_of_lt

/-- An operand is a value that nothing took before. -/
theorem untaken_of_mem_operands (hid : id ∈ v.operands m) :
    ∃ x, v.state.value? id = some x ∧ x.consumer = none ∧ x.receiver = false := by
  have hstack := mem_stack_of_mem_operands hid
  obtain ⟨x, hx⟩ := exists_value? (hr.pos id hstack) (hr.le id hstack)
  exact ⟨x, hx, hr.untaken id hstack x hx⟩

include hins h

/-- The arguments are what is marked, the receiver apart. -/
theorem mem_arguments_iff : id ∈ v.arguments m ↔
    id ∈ (taking (withRoles v.ins (v.operands m))).map (·.1) ∧
      (id, .receiver) ∉ taking (withRoles v.ins (v.operands m)) := by
  have hplain : id ∈ v.arguments m ↔ (id, .plain) ∈ withRoles v.ins (v.operands m) := by
    rw [arguments_eq hins (step_isOk_iff.1 ⟨r', h⟩).2, List.mem_map]
    constructor
    · rintro ⟨⟨id, role⟩, hmem, rfl⟩
      obtain ⟨hmem, hrole⟩ := List.mem_filter.1 hmem
      obtain rfl : role = .plain := eq_of_beq hrole
      exact hmem
    · intro hmem
      exact ⟨_, List.mem_filter.2 ⟨hmem, rfl⟩, rfl⟩
  have hreceiver : (id, .receiver) ∈ taking (withRoles v.ins (v.operands m)) ↔
      (id, .receiver) ∈ withRoles v.ins (v.operands m) := by
    simp [taking]
  rw [hplain, hreceiver, mem_taking_iff]
  constructor
  · intro hmem
    refine ⟨Or.inl hmem, fun hmem' => ?_⟩
    cases eq_of_mem_withRoles (nodup_operands hr) hmem hmem'
  · rintro ⟨hmem | hmem, hnot⟩
    · exact hmem
    · exact absurd hmem hnot

/-- **One step**: what is an argument of a position was one before, or is
one of this visit. -/
theorem isArgumentOf_step : (r'.value? id).any (isArgumentOf p) = true ↔
    (v.state.value? id).any (isArgumentOf p) = true ∨
      v.position = p ∧ id ∈ v.arguments m := by
  rw [mem_arguments_iff hr hins h]
  rcases Nat.lt_or_ge v.state.values.length id with hid | hid
  · -- a new value was not taken
    have hnone : v.state.value? id = none := by
      rw [Option.eq_none_iff_forall_ne_some]
      intro x hx
      exact absurd (value?_eq_some hx).2 (Nat.not_le_of_lt hid)
    have hnot : id ∉ (taking (withRoles v.ins (v.operands m))).map (·.1) := fun hmem =>
      Nat.not_le_of_lt hid
        (hr.le id (mem_stack_of_mem_operands (mem_operands_of_mem_taking hmem)))
    have hnew : ¬ (r'.value? id).any (isArgumentOf p) = true := by
      rw [Option.any_eq_true]
      rintro ⟨x, hx, harg⟩
      rw [isArgumentOf, (value?_step_of_gt h hid hx).2.1] at harg
      cases harg
    simp [hnone, hnot, hnew]
  · rw [value?_step_of_le h hid, ← Visit.operands]
    by_cases htaken : id ∈ (taking (withRoles v.ins (v.operands m))).map (·.1)
    · -- an operand that is taken now was not taken before
      obtain ⟨x, hx, hconsumer, hreceiver⟩ :=
        untaken_of_mem_operands hr (mem_operands_of_mem_taking htaken)
      simp [hx, isArgumentOf, marked, htaken, hconsumer, hreceiver]
    · rw [marked_of_notMem htaken, Option.map_id_fun']
      simp [htaken]

end Step

/-- **Every run**: the marks in the table are those of the visits. -/
theorem isArgumentOf_iff_of_trace (hm : m.body.WellFormed) {vs : List Visit} (h : Trace m r vs s)
    (hr : Sound r) :
    (s.value? id).any (isArgumentOf p) = true ↔
      (r.value? id).any (isArgumentOf p) = true ∨
        ∃ v ∈ vs, v.position = p ∧ id ∈ v.arguments m := by
  induction h with
  | nil r => simp
  | @cons v vs r' s hins hstep _ ih =>
    rw [ih (hr.step hstep),
      isArgumentOf_step hr (hm v.ins (List.mem_of_getElem? hins)) hstep, or_assoc]
    simp only [List.mem_cons, exists_eq_or_imp]

/-! ## Taken once -/

/-- An operand is gone behind its visit. -/
theorem notMem_stack_of_mem_operands {v : Visit} (hr : Sound v.state)
    (h : step m v.position v.ins v.state = .ok r') (hid : id ∈ v.operands m) : id ∉ r'.stack := by
  intro hmem
  rcases mem_stack_of_step h hmem with hnew | hold
  · exact Nat.not_le_of_lt hnew.1 (hr.le id (mem_stack_of_mem_operands hid))
  · exact Nat.lt_irrefl id (hr.lt_of_mem_operands hold hid)

namespace Trace

variable {vs : List Visit}

/-- What is gone from the stack is never an operand again, and its value
stays as it is. -/
theorem value?_of_gone (h : Trace m r vs s) (hle : id ≤ r.values.length) (hgone : id ∉ r.stack) :
    (∀ v ∈ vs, id ∉ v.operands m) ∧ s.value? id = r.value? id := by
  have hkept := h.invariant
    (I := fun t => id ≤ t.values.length ∧ id ∉ t.stack ∧ t.value? id = r.value? id)
    ⟨hle, hgone, rfl⟩ ?_
  · refine ⟨fun v hv hid => ?_, hkept.2.2.2⟩
    exact (hkept.1 v hv).2.1 (mem_stack_of_mem_operands hid)
  · rintro position ins t t' - hstep ⟨hle, hgone, hvalue⟩
    have hnot : id ∉ (taking (withRoles ins (operands m ins t))).map (·.1) := fun hmem =>
      hgone (mem_stack_of_mem_operands (mem_operands_of_mem_taking hmem))
    refine ⟨Nat.le_trans hle (length_values_le_of_step hstep), fun hid => ?_, ?_⟩
    · rcases mem_stack_of_step hstep hid with hnew | hold
      · exact Nat.not_le_of_lt hnew.1 hle
      · exact hgone (List.mem_of_mem_drop hold)
    · rw [value?_step_of_le hstep hle, marked_of_notMem hnot, Option.map_id_fun']
      exact hvalue

/-- **Every value is taken from the stack once.** -/
theorem nodup_operands (h : Trace m r vs s) (hr : Sound r) :
    (vs.flatMap (Visit.operands m)).Nodup := by
  induction h with
  | nil r => exact List.nodup_nil
  | @cons v vs r' s hins hstep hrest ih =>
    rw [List.flatMap_cons, List.nodup_append]
    refine ⟨Replay.nodup_operands hr, ih (hr.step hstep), fun i hi j hj hij => ?_⟩
    obtain ⟨w, hw, hj⟩ := List.mem_flatMap.1 hj
    have hle := Nat.le_trans (hr.le i (mem_stack_of_mem_operands hi))
      (length_values_le_of_step hstep)
    have hgone := hrest.value?_of_gone hle (notMem_stack_of_mem_operands hr hstep hi)
    exact hgone.1 w hw (hij ▸ hj)

/-- **No mark is made twice**: at a visit nothing has taken its operands,
and the mark that the visit makes is there at the end. -/
theorem consumer_of_mem_operands (h : Trace m r vs s) (hr : Sound r) {v : Visit} (hv : v ∈ vs)
    (hid : id ∈ v.operands m) :
    (v.state.value? id).map (·.consumer) = some none ∧
      (s.value? id).map (·.consumer) =
        some (if id ∈ inputs m v.ins v.state then some v.position else none) := by
  have hsound := (h.sound hr).1 v hv
  obtain ⟨before, after, rfl⟩ := List.append_of_mem hv
  obtain ⟨-, -, r', hstep, hrest⟩ := h.split.2.of_cons
  have hle := hsound.le id (mem_stack_of_mem_operands hid)
  obtain ⟨x, hx, hconsumer, -⟩ := untaken_of_mem_operands hsound hid
  -- behind the visit the operand is gone, so later visits leave its value alone
  have hgone := hrest.value?_of_gone (Nat.le_trans hle (length_values_le_of_step hstep))
    (notMem_stack_of_mem_operands hsound hstep hid)
  refine ⟨by rw [hx, Option.map_some, hconsumer], ?_⟩
  rw [hgone.2, value?_step_of_le hstep hle, hx, Option.map_some, Option.map_some,
    marked_consumer, hconsumer]
  rfl

end Trace

/-! ## The order of the visits -/

/-- The stack is so high that everything up to the number lies below the
operands. -/
theorem lt_of_countP_le {v : Visit} (hr : Sound v.state) {bound : Nat}
    (hcount : v.state.stack.countP (· ≤ bound) ≤ v.state.stack.length - popCount m v.ins)
    (hid : id ∈ v.operands m) : bound < id := by
  by_contra hle
  have hle : id ≤ bound := Nat.le_of_not_lt hle
  -- everything below the operand counts, and so does the operand
  have hbelow : (v.state.stack.drop (popCount m v.ins)).countP (· ≤ bound) =
      v.state.stack.length - popCount m v.ins := by
    rw [← List.length_drop, List.countP_eq_length]
    intro i hi
    exact decide_eq_true (Nat.le_trans (Nat.le_of_lt (hr.lt_of_mem_operands hi hid)) hle)
  have hone : 0 < (v.state.stack.take (popCount m v.ins)).countP (· ≤ bound) :=
    List.countP_pos_iff.2 ⟨id, List.mem_reverse.1 hid, decide_eq_true hle⟩
  have hsum : v.state.stack.countP (· ≤ bound) =
      (v.state.stack.take (popCount m v.ins)).countP (· ≤ bound) +
        (v.state.stack.drop (popCount m v.ins)).countP (· ≤ bound) := by
    rw [← List.countP_append, List.take_append_drop]
  omega

/-- New values have new numbers, so there are never more of the old ones
on the stack. -/
theorem countP_step_le {bound : Nat} (h : step m position ins r = .ok r')
    (hbound : bound ≤ r.values.length) :
    r'.stack.countP (· ≤ bound) ≤ (r.stack.drop (popCount m ins)).countP (· ≤ bound) := by
  have hnew :
      (List.range' (r.values.length + 1) (pushCount ins)).reverse.countP (· ≤ bound) = 0 := by
    rw [List.countP_eq_zero]
    intro i hi
    rw [List.mem_reverse, List.mem_range'_1] at hi
    simp only [decide_eq_true_eq]
    omega
  rw [step_stack h, List.countP_append, hnew, Nat.zero_add]

/-- **Operands of later visits are later values**, where the stack has the
same height at all visits to an instruction. -/
theorem Trace.pairwise_operands {vs : List Visit} (h : Trace m r vs s) (hr : Sound r)
    {height : Nat → Nat} (hheight : ∀ v ∈ vs, v.state.stack.length = height v.position) :
    vs.Pairwise fun v w =>
      v.position = w.position → ∀ i ∈ v.operands m, ∀ j ∈ w.operands m, i < j := by
  induction h with
  | nil r => exact .nil
  | @cons v vs r' s hins hstep hrest ih =>
    obtain ⟨hv, hheight⟩ := List.forall_mem_cons.1 hheight
    refine List.Pairwise.cons (fun w hw heq i hi j hj => ?_) (ih (hr.step hstep) hheight)
    -- behind the visit at most what it left on the stack has a number up to now
    have hkept := hrest.invariant
      (I := fun t => v.state.values.length ≤ t.values.length ∧
        t.stack.countP (· ≤ v.state.values.length) ≤ v.state.stack.length - popCount m v.ins)
      ⟨length_values_le_of_step hstep, ?_⟩ ?_
    · have hins' : w.ins = v.ins := by
        obtain ⟨before, after, rfl⟩ := List.append_of_mem hw
        obtain ⟨-, hins', -⟩ := hrest.split.2.of_cons
        rw [← heq, hins] at hins'
        exact (Option.some.inj hins').symm
      have hcount := (hkept.1 w hw).2
      rw [hv, heq, ← hheight w hw, ← hins'] at hcount
      have hsound := (hrest.sound (hr.step hstep)).1 w hw
      exact Nat.lt_of_le_of_lt (hr.le i (mem_stack_of_mem_operands hi))
        (lt_of_countP_le hsound hcount hj)
    · refine Nat.le_trans (countP_step_le hstep (Nat.le_refl _)) ?_
      rw [← List.length_drop]
      exact List.countP_le_length
    · rintro position ins t t' - hstep' ⟨hle, hcount⟩
      refine ⟨Nat.le_trans hle (length_values_le_of_step hstep'), ?_⟩
      exact Nat.le_trans (countP_step_le hstep' hle)
        (Nat.le_trans ((List.drop_sublist _ _).countP_le) hcount)

/-- The stack has the height of the position at every visit of an
execution. -/
theorem Trace.length_stack {vs : List Visit} (h : Trace m {} vs s) {height : Nat → Nat}
    (hlevel : Leveled m height) (hpath : ControlFlow.IsExecution m (vs.map (·.position))) :
    ∀ v ∈ vs, v.state.stack.length = height v.position := by
  intro v hv
  obtain ⟨before, after, rfl⟩ := List.append_of_mem hv
  rw [List.map_append, List.map_cons] at hpath
  obtain ⟨t, ht, hlength⟩ := hlevel.exists_steps hpath
  rw [h.split.1.steps_eq_ok] at ht
  cases ht
  exact hlength

end Replay

/-! ## What a value graph answers -/

namespace ValueGraph

open Replay

variable {m : Method} {r : Replay} {path : List Nat} {p : Nat}

theorem value?_ofReplay (path : List Nat) (r : Replay) (id : ValueId) :
    (ofReplay path r).value? id = r.value? id := by
  cases id with
  | zero => rfl
  | succ k =>
    have hpos : ¬ ((k + 1 : Nat) : Int) ≤ 0 := by omega
    have hindex : (((k + 1 : Nat) : Int) - 1).toNat = k := by omega
    rw [value?, if_neg hpos, hindex]
    rfl

/-- The values are listed in the order of their numbers. -/
theorem pairwise_consumedAt (vg : ValueGraph) (p : Nat) : (vg.consumedAt p).Pairwise (· < ·) := by
  have hnumbers : (vg.numbered.map (·.1)).Pairwise (· < ·) := by
    have hindices : (vg.values.zipIdx.map (·.2)).Pairwise (· < ·) := by
      rw [List.zipIdx_map_snd]
      exact List.pairwise_lt_range'
    rw [numbered, List.map_map]
    rw [List.pairwise_map] at hindices ⊢
    exact hindices.imp Nat.succ_lt_succ
  rw [consumedAt]
  split
  · exact hnumbers.sublist (List.filter_sublist.map _)
  · exact .nil

theorem mem_numbered {id : ValueId} {x : Value} :
    (id, x) ∈ (ofReplay path r).numbered ↔ r.value? id = some x := by
  rw [numbered, List.mem_map]
  constructor
  · rintro ⟨⟨y, k⟩, hmem, heq⟩
    cases heq
    exact List.mem_zipIdx_iff_getElem?.1 hmem
  · intro hx
    cases id with
    | zero => cases hx
    | succ k => exact ⟨(x, k), List.mem_zipIdx_iff_getElem?.2 hx, rfl⟩

/-- What is listed are the arguments of the position. -/
theorem mem_consumedAt {id : ValueId} : id ∈ (ofReplay path r).consumedAt p ↔
    p ∈ path ∧ (r.value? id).any (isArgumentOf p) = true := by
  rw [consumedAt, Option.any_eq_true]
  split
  · rename_i hp
    rw [List.contains_iff_mem] at hp
    simp only [List.mem_map, List.mem_filter]
    constructor
    · rintro ⟨⟨id, x⟩, ⟨hmem, harg⟩, rfl⟩
      exact ⟨hp, x, mem_numbered.1 hmem, harg⟩
    · rintro ⟨-, x, hx, harg⟩
      exact ⟨(id, x), ⟨mem_numbered.2 hx, harg⟩, rfl⟩
  · rename_i hp
    rw [List.contains_iff_mem] at hp
    constructor
    · intro hmem
      exact absurd hmem List.not_mem_nil
    · rintro ⟨hmem, -⟩
      exact absurd hmem hp

/-- They are the arguments of the visits to the position. -/
theorem mem_consumedAt_iff_of_trace (hm : m.body.WellFormed) {vs : List Visit}
    (h : Trace m {} vs r) (hpath : vs.map (·.position) = path) {id : ValueId} :
    id ∈ (ofReplay path r).consumedAt p ↔
      id ∈ (vs.filter (·.position == p)).flatMap (Visit.arguments m) := by
  have hnone : ({} : Replay).value? id = none := by cases id <;> rfl
  rw [mem_consumedAt, isArgumentOf_iff_of_trace hm h sound_empty, hnone, List.mem_flatMap]
  constructor
  · rintro ⟨-, hbefore | ⟨v, hv, hp, hid⟩⟩
    · cases hbefore
    · exact ⟨v, List.mem_filter.2 ⟨hv, beq_iff_eq.2 hp⟩, hid⟩
  · rintro ⟨v, hmem, hid⟩
    obtain ⟨hv, hp⟩ := List.mem_filter.1 hmem
    have hp : v.position = p := eq_of_beq hp
    exact ⟨hpath ▸ List.mem_map.2 ⟨v, hv, hp⟩, Or.inr ⟨v, hv, hp, hid⟩⟩

theorem arguments_sublist (m : Method) (v : Visit) : (v.arguments m).Sublist (v.operands m) := by
  have hids : ((v.operands m).zipIdx.map (·.1)) = v.operands m := List.zipIdx_map_fst _ _
  rw [← hids]
  exact List.filter_sublist.map _

/-- No value is an argument twice. -/
theorem nodup_arguments {vs : List Visit} {s : Replay} (h : Trace m {} vs s) (p : Nat) :
    ((vs.filter (·.position == p)).flatMap (Visit.arguments m)).Nodup := by
  have hvisits : ((vs.filter (·.position == p)).flatMap (Visit.operands m)).Sublist
      (vs.flatMap (Visit.operands m)) := List.filter_sublist.flatMap _
  exact (h.nodup_operands sound_empty).sublist
    ((List.Sublist.flatMap_right _ fun v _ => arguments_sublist m v).trans hvisits)

/-- The arguments of the visits to a position, in order. -/
theorem pairwise_arguments {vs : List Visit} {s : Replay} (h : Trace m {} vs s)
    {height : Nat → Nat} (hheight : ∀ v ∈ vs, v.state.stack.length = height v.position) (p : Nat) :
    ((vs.filter (·.position == p)).flatMap (Visit.arguments m)).Pairwise (· < ·) := by
  rw [List.pairwise_flatMap]
  constructor
  · intro v hv
    exact ((h.sound sound_empty).1 v (List.mem_filter.1 hv).1).sorted_operands.sublist
      (arguments_sublist m v)
  · rw [List.pairwise_filter]
    refine (h.pairwise_operands sound_empty hheight).imp fun {v w} hvw hv hw i hi j hj => ?_
    exact hvw ((eq_of_beq hv).trans (eq_of_beq hw).symm) i ((arguments_sublist m v).subset hi) j
      ((arguments_sublist m w).subset hj)

/-- **What an instruction consumed are the arguments of its visits**: on
every execution that is replayed, the operands that each visit took from
the stack, without the receiver of a call and without what the callee
only writes, listed by their numbers. Where the method has a tracker this
is one visit after the other, and for each visit the deepest operand
first. Every value is taken from the stack once, at a visit before which
nothing consumed it, and keeps the consumer that it got there. -/
theorem consumedAt_eq_arguments {d : ListingDocument} {a : Assembly}
    (ha : Assembly.ofDocument d = .ok a) (hm : m ∈ a.methods)
    (hpath : ControlFlow.IsExecution m path) (hr : Replay.run m path = .ok r) :
    (visits m {} path).map (·.position) = path ∧
    (∀ p, ((ofReplay path r).consumedAt p).Pairwise (· < ·) ∧
      ((ofReplay path r).consumedAt p).Perm
        (((visits m {} path).filter (·.position == p)).flatMap (Visit.arguments m))) ∧
    ((∃ t, ValueTracker.ofMethod m = .ok t) → ∀ p, (ofReplay path r).consumedAt p =
      ((visits m {} path).filter (·.position == p)).flatMap (Visit.arguments m)) ∧
    ((visits m {} path).flatMap (Visit.operands m)).Nodup ∧
    ∀ v ∈ visits m {} path, ∀ id ∈ v.operands m,
      (v.state.value? id).map (·.consumer) = some none ∧
      ((ofReplay path r).value? id).map (·.consumer) =
        some (if id ∈ inputs m v.ins v.state then some v.position else none) := by
  have hbody := Assembly.wellFormed_of_ofDocument ha hm
  have hsteps := steps_of_run hr
  have htrace : Trace m {} (visits m {} path) r := trace_of_steps hsteps
  have hpositions := map_position_visits hsteps hpath.exists_instruction
  refine ⟨hpositions, fun p => ?_, ?_, htrace.nodup_operands sound_empty, fun v hv id hid => ?_⟩
  · have hsorted := pairwise_consumedAt (ofReplay path r) p
    refine ⟨hsorted, (List.perm_ext_iff_of_nodup (hsorted.imp Nat.ne_of_lt)
      (nodup_arguments htrace p)).2 ?_⟩
    exact fun id => mem_consumedAt_iff_of_trace hbody htrace hpositions
  · -- both sides are sorted, the arguments because the visits have one height
    rintro ⟨t, ht⟩ p
    obtain ⟨height, hlevel⟩ := ValueTracker.exists_leveled_of_ofMethod hbody ht
    have hheight := htrace.length_stack hlevel (by rwa [hpositions])
    exact List.Pairwise.eq_of_mem_iff (pairwise_consumedAt _ p)
      (pairwise_arguments htrace hheight p)
      fun id => mem_consumedAt_iff_of_trace hbody htrace hpositions
  · rw [value?_ofReplay]
    exact htrace.consumer_of_mem_operands sound_empty hv hid

/-- A loop around a call with a receiver, an argument and a parameter
that it writes. -/
def callListing : ListingDocument :=
  Assembly.testDocument 1 [("void T::M()",
    "ldnull\nldc.i4.1\nldloca.s 0\ncallvirt instance bool S::Take(int32, out int32&)\n" ++
      "brtrue IL_0000\nret")]

/-- On two laps the call consumes its argument twice, and nothing else. -/
theorem consumedAt_eq_arguments_callListing :
    ∃ a m t vg, Assembly.ofDocument callListing = .ok a ∧ m ∈ a.methods ∧
      ValueTracker.ofMethod m = .ok t ∧ vg ∈ t.graphs ∧
      vg.path = [0, 1, 2, 3, 4, 0, 1, 2, 3, 4, 5] ∧ vg.consumedAt 3 = [2, 7] ∧
      vg.consumedAt 3 =
        ((visits m {} vg.path).filter (·.position == 3)).flatMap (Visit.arguments m) := by
  obtain ⟨a, m, c, t, ha, hm, -, ht, htest⟩ := ValueTracker.exists_tracker_of_any callListing
    [[1], [2], [3], [4], [5, 0], []]
    [(0, [1]), (1, [2]), (2, [3]), (3, [4]), (4, [5, 0]), (5, [])]
    (fun t => t.graphs.any fun vg =>
      vg.path == [0, 1, 2, 3, 4, 0, 1, 2, 3, 4, 5] && vg.consumedAt 3 == [2, 7])
    (by simp [explore, Adjacency.has, Adjacency.fresh]) (by decide +kernel)
  obtain ⟨vg, hvg, h⟩ := List.any_eq_true.1 htest
  obtain ⟨hpath, hconsumed⟩ := Bool.and_eq_true_iff.1 h
  obtain ⟨path, r, rfl, hexecution, hr⟩ :=
    ValueTracker.exists_run_of_mem_graphs (Assembly.wellFormed_of_ofDocument ha hm) ht hvg
  exact ⟨a, m, t, _, ha, hm, ht, hvg, eq_of_beq hpath, eq_of_beq hconsumed,
    (consumedAt_eq_arguments ha hm hexecution hr).2.2.1 ⟨t, ht⟩ 3⟩

/-- A loop that takes one more value on every lap, so that only the
execution with two laps leaves the stack empty. -/
def drainListing : ListingDocument :=
  Assembly.testDocument 0
    [("void T::M()", "ldc.i4.1\nldc.i4.2\npop\nldc.i4.0\nbrtrue IL_0002\nret")]

/-- **Without a tracker the order can be another**: the laps take the
second value and then the first, and the values are listed by number. -/
theorem exists_consumedAt_ne_arguments :
    ∃ a m path r, Assembly.ofDocument drainListing = .ok a ∧ m ∈ a.methods ∧
      ControlFlow.IsExecution m path ∧ Replay.run m path = .ok r ∧
      (ofReplay path r).consumedAt 2 = [1, 2] ∧
      ((visits m {} path).filter (·.position == 2)).flatMap (Visit.arguments m) = [2, 1] := by
  obtain ⟨a, m, ha, hm, h⟩ := Assembly.exists_method_of_any drainListing
    (fun m => ControlFlow.follows m [[1], [2], [3], [4], [5, 2], []] &&
      (ControlFlow.mk m
        ⟨0, [(0, [1]), (1, [2]), (2, [3]), (3, [4]), (4, [5, 2]), (5, [])]⟩).paths.any fun path =>
          (Replay.run m path).toOption.any fun r =>
          (ofReplay path r).consumedAt 2 == [1, 2] &&
          ((visits m {} path).filter (·.position == 2)).flatMap (Visit.arguments m) == [2, 1])
    (by decide +kernel)
  obtain ⟨hfollows, h⟩ := Bool.and_eq_true_iff.1 h
  obtain ⟨path, hpath, h⟩ := List.any_eq_true.1 h
  obtain ⟨r, hr, h⟩ := (Option.any_eq_true _ _).1 h
  obtain ⟨hconsumed, harguments⟩ := Bool.and_eq_true_iff.1 h
  have hc := ControlFlow.ofMethod_of_follows
    [(0, [1]), (1, [2]), (2, [3]), (3, [4]), (4, [5, 2]), (5, [])] hfollows
    (by simp [explore, Adjacency.has, Adjacency.fresh])
  have hbody := Assembly.wellFormed_of_ofDocument ha hm
  exact ⟨a, m, path, r, ha, hm, ((ControlFlow.mem_paths_iff hbody hc).1 hpath).1,
    toOption_eq_some.1 hr, eq_of_beq hconsumed, eq_of_beq harguments⟩

end ValueGraph

end SmellCheck
