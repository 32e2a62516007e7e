import SmellCheck.Flow.Replay
import SmellCheck.Proofs.Outcome
import Mathlib.Data.List.Basic
/-!
# What one step of a replay does

A step takes operands from the stack, marks those that are taken as
inputs, stores, pushes, and writes back through references. Whether it
can be made depends on the instruction and on the height of the stack
only (`step_isOk_iff`). What it leaves is said once for each of the three
parts of the state: the stack (`step_stack`), the table of values
(`step_values`) and the log of slot writes (`step_writes`). Everything
about runs is read off these.
-/

namespace SmellCheck.Replay

variable {m : Method} {position : Nat} {ins : Instruction} {r r' : Replay}

/-! ## What a step takes -/

/-- The operands that an instruction takes from the stack, the deepest
first. -/
def operands (m : Method) (ins : Instruction) (r : Replay) : List ValueId :=
  (r.stack.take (popCount m ins)).reverse

/-- The operands that it takes as inputs. -/
def inputs (m : Method) (ins : Instruction) (r : Replay) : List ValueId :=
  consumed (withRoles ins (operands m ins r))

/-- The state without the operands, in which the inputs are marked. -/
def taken (m : Method) (position : Nat) (ins : Instruction) (r : Replay) : Replay :=
  { r with stack := r.stack.drop (popCount m ins) }.consumeAll position
    (withRoles ins (operands m ins r))

/-- **The parts of a step that is made.** -/
theorem step_eq_ok : step m position ins r = .ok r' ↔
    ¬ (ins.opcode.flow == .call && ins.method?.isNone) = true ∧
    popCount m ins ≤ r.stack.length ∧
    ∃ stored pushed, store m ins (operands m ins r) (taken m position ins r) = .ok stored ∧
      pushAll m position ins (inputs m ins r) (pushCount ins) stored = .ok pushed ∧
      writeBackAll m position ins (operands m ins r) (inputs m ins r) pushed = r' := by
  rw [step]
  by_cases hcall : (ins.opcode.flow == .call && ins.method?.isNone) = true
  · rw [if_pos hcall]
    constructor
    · intro h; cases h
    · intro h; exact absurd hcall h.1
  rw [if_neg hcall]
  by_cases hpops : r.stack.length < popCount m ins
  · simp only [if_pos hpops]
    constructor
    · intro h; cases h
    · intro h; exact absurd h.2.1 (by omega)
  simp only [if_neg hpops]
  constructor
  · intro h
    obtain ⟨stored, hstored, h⟩ := bind_eq_ok.1 h
    obtain ⟨pushed, hpushed, h⟩ := bind_eq_ok.1 h
    cases h
    exact ⟨hcall, by omega, stored, pushed, hstored, hpushed, rfl⟩
  · rintro ⟨-, -, stored, pushed, hstored, hpushed, rfl⟩
    exact bind_eq_ok.2 ⟨stored, hstored, bind_eq_ok.2 ⟨pushed, hpushed, rfl⟩⟩

/-! ## Marking the inputs -/

@[simp] theorem consume_stack (r : Replay) (asReceiver : Bool) (id : ValueId) :
    (r.consume position asReceiver id).stack = r.stack := by
  cases id <;> rfl

@[simp] theorem consume_writes (r : Replay) (asReceiver : Bool) (id : ValueId) :
    (r.consume position asReceiver id).writes = r.writes := by
  cases id <;> rfl

/-- The operands that are taken as inputs, with their roles. -/
def taking (roles : List (ValueId × Role)) : List (ValueId × Role) :=
  roles.filter (·.2 != .outArgument)

@[simp] theorem consumeAll_stack (r : Replay) (roles : List (ValueId × Role)) :
    (r.consumeAll position roles).stack = r.stack := by
  rw [consumeAll]
  induction roles.filter (·.2 != .outArgument) generalizing r with
  | nil => rfl
  | cons a roles ih => rw [List.foldl_cons, ih, consume_stack]

@[simp] theorem consumeAll_writes (r : Replay) (roles : List (ValueId × Role)) :
    (r.consumeAll position roles).writes = r.writes := by
  rw [consumeAll]
  induction roles.filter (·.2 != .outArgument) generalizing r with
  | nil => rfl
  | cons a roles ih => rw [List.foldl_cons, ih, consume_writes]

/-- The value with the given number, marked if it is among those that are
taken. -/
def marked (position : Nat) (taking : List (ValueId × Role)) (id : ValueId) (v : Value) : Value :=
  if id ∈ taking.map (·.1) then
    { v with
      consumer := some position
      receiver := v.receiver || taking.contains (id, .receiver) }
  else v

@[simp] theorem marked_producer (taking : List (ValueId × Role)) (id : ValueId) (v : Value) :
    (marked position taking id v).producer = v.producer := by
  rw [marked]; split <;> rfl

@[simp] theorem marked_parents (taking : List (ValueId × Role)) (id : ValueId) (v : Value) :
    (marked position taking id v).parents = v.parents := by
  rw [marked]; split <;> rfl

theorem marked_consumer (taking : List (ValueId × Role)) (id : ValueId) (v : Value) :
    (marked position taking id v).consumer =
      if id ∈ taking.map (·.1) then some position else v.consumer := by
  rw [marked]; split <;> rfl

theorem marked_of_notMem {taking : List (ValueId × Role)} {id : ValueId}
    (h : id ∉ taking.map (·.1)) : marked position taking id = fun v => v := by
  funext v
  rw [marked, if_neg h]

/-- One value is marked and the others are as they were. -/
theorem consume_values (r : Replay) (role : Role) (id : ValueId) (k : Nat) :
    (r.consume position (role == .receiver) id).values[k]? =
      r.values[k]?.map (marked position [(id, role)] (k + 1)) := by
  cases id with
  | zero =>
    rw [marked_of_notMem (by simp), Option.map_id_fun']
    rfl
  | succ id =>
    rw [consume, List.getElem?_modify, Option.map_eq_map]
    congr 1
    funext v
    by_cases hid : id = k
    · subst hid
      have hrole : (role == Role.receiver) = decide (Role.receiver = role) := by
        cases role <;> rfl
      simp [marked, hrole]
    · have hne : ¬ k + 1 = id + 1 := by omega
      rw [if_neg hid, marked, if_neg (by simpa using hne)]

/-- Marking one after another marks them all. -/
theorem marked_marked (a : ValueId × Role) (taking : List (ValueId × Role)) (id : ValueId)
    (v : Value) :
    marked position taking id (marked position [a] id v) = marked position (a :: taking) id v := by
  by_cases hid : id = a.1
  · subst hid
    -- a value may be taken twice, and is a receiver if either use is one
    by_cases hmem : a.1 ∈ taking.map (·.1)
    · simp [marked, hmem, Bool.or_assoc]
    · have hnone : (a.1, Role.receiver) ∉ taking := fun h =>
        hmem (List.mem_map.2 ⟨_, h, rfl⟩)
      simp [marked, hmem, hnone]
  · have hne : (id, Role.receiver) ≠ a := fun h => hid (by rw [← h])
    by_cases hmem : id ∈ taking.map (·.1)
    · simp [marked, hid, hmem, hne]
    · simp [marked, hid, hmem]

/-- **The inputs are marked in the table**, and nothing else changes. -/
theorem consumeAll_values (r : Replay) (roles : List (ValueId × Role)) (k : Nat) :
    (r.consumeAll position roles).values[k]? =
      r.values[k]?.map (marked position (taking roles) (k + 1)) := by
  rw [consumeAll, taking]
  induction roles.filter (·.2 != .outArgument) generalizing r with
  | nil => rw [marked_of_notMem List.not_mem_nil, Option.map_id_fun']; rfl
  | cons a roles ih =>
    rw [List.foldl_cons, ih, consume_values, Option.map_map]
    congr 1
    funext v
    exact marked_marked a roles (k + 1) v

theorem length_consumeAll_values (r : Replay) (roles : List (ValueId × Role)) :
    (r.consumeAll position roles).values.length = r.values.length := by
  rw [consumeAll]
  induction roles.filter (·.2 != .outArgument) generalizing r with
  | nil => rfl
  | cons a roles ih =>
    rw [List.foldl_cons, ih]
    obtain ⟨id, role⟩ := a
    cases id with
    | zero => rfl
    | succ id => exact List.length_modify _ _ _

/-! ## Stores -/

/-- The slot that is touched is the one that the instruction names. -/
theorem slotIndex?_of_slotOf {access : SlotAccess} {index : Nat}
    (h : slotOf m access ins = .ok index) :
    ins.slotIndex? = some index ∧ index < m.slots access.space := by
  rw [slotOf] at h
  split at h
  · cases h
  · rename_i i hi
    split at h
    · cases h; exact ⟨hi, by assumption⟩
    · cases h

/-- What an instruction stores from its operands. -/
def storeWrites (ins : Instruction) (operands : List ValueId) : List SlotWrite :=
  match ins.opcode.slot, ins.slotIndex?, operands with
  | some ⟨.store, space⟩, some index, id :: _ => [⟨space, index, id⟩]
  | _, _, _ => []

/-- A store adds to the log and changes nothing else. -/
theorem store_eq_ok {operands : List ValueId} (h : store m ins operands r = .ok r') :
    r'.stack = r.stack ∧ r'.values = r.values ∧
      r'.writes = storeWrites ins operands ++ r.writes := by
  unfold store at h
  split at h
  · rename_i space id rest hslot
    obtain ⟨index, hindex, h⟩ := bind_eq_ok.1 h
    cases h
    refine ⟨rfl, rfl, ?_⟩
    simp only [storeWrites, hslot, (slotIndex?_of_slotOf hindex).1]
    rfl
  · rename_i hother
    cases h
    refine ⟨rfl, rfl, ?_⟩
    unfold storeWrites
    split
    · rename_i space index id rest hslot hindex
      exact absurd rfl (hother space id rest hslot)
    · rfl

/-! ## Pushes -/

/-- The parents of what an instruction pushes: what the slot of a load
holds, and else the inputs. -/
def pushedParents (ins : Instruction) (inputs : List ValueId) (r : Replay) : List ValueId :=
  match ins.opcode.slot, ins.slotIndex? with
  | some ⟨.load, space⟩, some index => (r.slotValue? space index).toList
  | some ⟨.load, _⟩, none => []
  | _, _ => inputs

theorem parentsOf_eq_ok {inputs parents : List ValueId}
    (h : parentsOf m ins inputs r = .ok parents) : parents = pushedParents ins inputs r := by
  unfold parentsOf at h
  split at h
  · rename_i space hslot
    obtain ⟨index, hindex, h⟩ := bind_eq_ok.1 h
    cases h
    rw [pushedParents, hslot, (slotIndex?_of_slotOf hindex).1]
  · rename_i hother
    cases h
    rw [pushedParents]
    split
    · rename_i space index hslot hindex
      exact absurd hslot (hother space)
    · rename_i space hslot hindex
      exact absurd hslot (hother space)
    · rfl

/-- The parents depend on the log only. -/
theorem pushedParents_congr {inputs : List ValueId} (h : r.writes = r'.writes) :
    pushedParents ins inputs r = pushedParents ins inputs r' := by
  simp only [pushedParents, slotValue?, h]

/-- **Pushes give numbers in order**, the last on top. -/
theorem pushAll_eq_ok {inputs : List ValueId} {count : Nat}
    (h : pushAll m position ins inputs count r = .ok r') :
    r'.writes = r.writes ∧
      r'.stack = (List.range' (r.values.length + 1) count).reverse ++ r.stack ∧
      r'.values = r.values ++
        List.replicate count { producer := position, parents := pushedParents ins inputs r } := by
  induction count generalizing r with
  | zero => cases h; simp
  | succ count ih =>
    rw [pushAll] at h
    obtain ⟨parents, hparents, h⟩ := bind_eq_ok.1 h
    obtain ⟨hwrites, hstack, hvalues⟩ := ih h
    refine ⟨hwrites, ?_, ?_⟩
    · rw [hstack, List.range'_succ]
      simp [push, create]
    · rw [hvalues, List.replicate_succ, parentsOf_eq_ok hparents,
        pushedParents_congr (show (r.push position _).writes = r.writes from rfl)]
      simp [push, create]

/-! ## Writing back -/

/-- The operands through which the callee writes, in order. -/
def writtenOperands (ins : Instruction) (operands : List ValueId) : List ValueId :=
  match ins.method? with
  | some callee => writtenArguments ins.opcode callee operands
  | none => []

theorem writeBackAll_eq (operands inputs : List ValueId) (r : Replay) :
    writeBackAll m position ins operands inputs r =
      (writtenOperands ins operands).foldl (writeBack m position inputs) r := by
  cases hcallee : ins.method? with
  | none => simp only [writeBackAll, writtenOperands, hcallee, List.foldl_nil]
  | some callee => simp only [writeBackAll, writtenOperands, hcallee]

/-- What is written back through arguments, the values being numbered
from the given one on. -/
def writeBacks (m : Method) (r : Replay) (number : ValueId) (arguments : List ValueId) :
    List SlotWrite :=
  (arguments.zipIdx number).filterMap fun (argument, id) =>
    (addressed? m r argument).map fun (space, index) => ⟨space, index, id⟩

/-- The slot behind a value is told by its producer. -/
theorem addressed?_congr {id : ValueId}
    (h : (r.value? id).map (·.producer) = (r'.value? id).map (·.producer)) :
    addressed? m r id = addressed? m r' id := by
  cases hv : r.value? id with
  | none =>
    rw [hv] at h
    have hv' : r'.value? id = none := Option.map_eq_none_iff.1 h.symm
    simp [addressed?, hv, hv']
  | some v =>
    rw [hv] at h
    obtain ⟨v', hv', hproducer⟩ := Option.map_eq_some_iff.1 h.symm
    simp [addressed?, hv, hv', hproducer]

theorem writeBacks_congr {number : ValueId} {arguments : List ValueId}
    (h : ∀ id ∈ arguments, (r.value? id).map (·.producer) = (r'.value? id).map (·.producer)) :
    writeBacks m r number arguments = writeBacks m r' number arguments := by
  refine List.filterMap_congr fun a ha => ?_
  have haddressed := addressed?_congr (m := m) (h a.1 (List.fst_mem_of_mem_zipIdx ha))
  obtain ⟨argument, id⟩ := a
  simp only [haddressed]

/-- One argument gets a value. -/
theorem writeBack_values (m : Method) (position : Nat) (inputs : List ValueId) (r : Replay)
    (argument : ValueId) :
    (writeBack m position inputs r argument).stack = r.stack ∧
      (writeBack m position inputs r argument).values =
        r.values ++ [{ producer := position, parents := inputs }] := by
  simp only [writeBack, create]
  split <;> exact ⟨rfl, rfl⟩

/-- Each argument gets a value. -/
theorem foldl_writeBack_values (m : Method) (position : Nat) (inputs arguments : List ValueId)
    (r : Replay) :
    (arguments.foldl (writeBack m position inputs) r).stack = r.stack ∧
      (arguments.foldl (writeBack m position inputs) r).values = r.values ++
        List.replicate arguments.length { producer := position, parents := inputs } := by
  induction arguments generalizing r with
  | nil => simp
  | cons argument arguments ih =>
    obtain ⟨hstack, hvalues⟩ := ih (writeBack m position inputs r argument)
    obtain ⟨hstack₁, hvalues₁⟩ := writeBack_values m position inputs r argument
    rw [List.foldl_cons, hstack, hvalues, hstack₁, hvalues₁, List.length_cons,
      List.replicate_succ, List.append_assoc]
    exact ⟨rfl, rfl⟩

/-- A number that was given before keeps its value when others follow. -/
theorem value?_of_append {more : List Value} {id : ValueId} (h : id ≤ r.values.length)
    (hvalues : r'.values = r.values ++ more) : r'.value? id = r.value? id := by
  cases id with
  | zero => rfl
  | succ k =>
    rw [value?, value?, hvalues]
    exact List.getElem?_append_left h

/-- **The writes through arguments**, each to the slot that its argument
was loaded from. -/
theorem foldl_writeBack_writes (inputs arguments : List ValueId) (r : Replay)
    (hids : ∀ id ∈ arguments, id ≤ r.values.length) :
    (arguments.foldl (writeBack m position inputs) r).writes =
      (writeBacks m r (r.values.length + 1) arguments).reverse ++ r.writes := by
  induction arguments generalizing r with
  | nil => rfl
  | cons argument arguments ih =>
    obtain ⟨-, hvalues⟩ := writeBack_values m position inputs r argument
    have hlength :
        (writeBack m position inputs r argument).values.length = r.values.length + 1 := by
      rw [hvalues, List.length_append, List.length_singleton]
    -- the slots behind the other arguments are still the same
    have hrest :
        writeBacks m (writeBack m position inputs r argument) (r.values.length + 2) arguments =
          writeBacks m r (r.values.length + 2) arguments := by
      refine writeBacks_congr fun id hid => ?_
      rw [value?_of_append (hids id (List.mem_cons_of_mem _ hid)) hvalues]
    have hslot : addressed? m (r.create position inputs).2 argument = addressed? m r argument := by
      refine addressed?_congr ?_
      rw [value?_of_append (hids argument List.mem_cons_self) rfl]
    rw [List.foldl_cons, ih _ fun id hid => ?_]
    · rw [hlength, hrest]
      cases haddressed : addressed? m r argument with
      | none =>
        rw [haddressed] at hslot
        simp only [writeBack, hslot, writeBacks, List.zipIdx_cons, List.filterMap_cons, haddressed]
        rfl
      | some slot =>
        rw [haddressed] at hslot
        simp only [writeBack, hslot, writeBacks, List.zipIdx_cons, List.filterMap_cons, haddressed]
        simp [write, create]
    · rw [hlength]
      exact Nat.le_succ_of_le (hids id (List.mem_cons_of_mem _ hid))

/-! ## The step as a whole -/

@[simp] theorem taken_stack : (taken m position ins r).stack = r.stack.drop (popCount m ins) :=
  consumeAll_stack _ _

@[simp] theorem taken_writes : (taken m position ins r).writes = r.writes :=
  consumeAll_writes _ _

@[simp] theorem length_taken_values : (taken m position ins r).values.length = r.values.length :=
  length_consumeAll_values _ _

/-- Taking the operands marks the inputs. -/
theorem taken_values (k : Nat) :
    (taken m position ins r).values[k]? = r.values[k]?.map
      (marked position (taking (withRoles ins (operands m ins r))) (k + 1)) :=
  consumeAll_values _ _ k

theorem length_operands (h : popCount m ins ≤ r.stack.length) :
    (operands m ins r).length = popCount m ins := by
  rw [operands, List.length_reverse, List.length_take, Nat.min_eq_left h]

/-- The instruction touches a slot of the method, if it uses one so. -/
def SlotReady (m : Method) (ins : Instruction) (use : SlotUse) : Prop :=
  ∀ space, ins.opcode.slot = some ⟨use, space⟩ → ∃ index, slotOf m ⟨use, space⟩ ins = .ok index

/-- The instruction has what it needs besides operands: a call its
method, and a store or a load its slot. -/
structure Admissible (m : Method) (ins : Instruction) : Prop where
  callee : ¬ (ins.opcode.flow == .call && ins.method?.isNone) = true
  store_ready : 0 < popCount m ins → SlotReady m ins .store
  load_ready : 0 < pushCount ins → SlotReady m ins .load

theorem store_isOk_iff {operands : List ValueId} :
    (∃ r', store m ins operands r = .ok r') ↔ (0 < operands.length → SlotReady m ins .store) := by
  unfold store
  split
  · rename_i space id rest hslot
    constructor
    · rintro ⟨r', h⟩ - space' hslot'
      obtain ⟨index, hindex, -⟩ := bind_eq_ok.1 h
      rw [hslot] at hslot'
      cases hslot'
      exact ⟨index, hindex⟩
    · intro h
      obtain ⟨index, hindex⟩ := h (by simp) space hslot
      exact ⟨_, bind_eq_ok.2 ⟨index, hindex, rfl⟩⟩
  · rename_i hother
    constructor
    · rintro - hpos space hslot
      obtain ⟨id, rest, hoperands⟩ := List.exists_cons_of_ne_nil (List.length_pos_iff.1 hpos)
      exact absurd hoperands (hother space id rest hslot)
    · intro _
      exact ⟨r, rfl⟩

theorem parentsOf_isOk_iff {inputs : List ValueId} :
    (∃ parents, parentsOf m ins inputs r = .ok parents) ↔ SlotReady m ins .load := by
  unfold parentsOf
  split
  · rename_i space hslot
    constructor
    · rintro ⟨parents, h⟩ space' hslot'
      obtain ⟨index, hindex, -⟩ := bind_eq_ok.1 h
      rw [hslot] at hslot'
      cases hslot'
      exact ⟨index, hindex⟩
    · intro h
      obtain ⟨index, hindex⟩ := h space hslot
      exact ⟨_, bind_eq_ok.2 ⟨index, hindex, rfl⟩⟩
  · rename_i hother
    constructor
    · rintro - space hslot
      exact absurd hslot (hother space)
    · intro _
      exact ⟨inputs, rfl⟩

theorem pushAll_isOk_iff {inputs : List ValueId} {count : Nat} :
    (∃ r', pushAll m position ins inputs count r = .ok r') ↔
      (0 < count → SlotReady m ins .load) := by
  induction count generalizing r with
  | zero => exact ⟨fun _ h => absurd h (Nat.lt_irrefl 0), fun _ => ⟨r, rfl⟩⟩
  | succ count ih =>
    constructor
    · rintro ⟨r', h⟩ -
      obtain ⟨parents, hparents, -⟩ := bind_eq_ok.1 h
      exact parentsOf_isOk_iff.1 ⟨parents, hparents⟩
    · intro h
      obtain ⟨parents, hparents⟩ := parentsOf_isOk_iff.2 (h (Nat.succ_pos count))
      obtain ⟨r', hr'⟩ := ih.2 fun _ => h (Nat.succ_pos count)
      exact ⟨r', bind_eq_ok.2 ⟨parents, hparents, hr'⟩⟩

/-- **Whether a step can be made depends on the instruction and on the
height of the stack only.** -/
theorem step_isOk_iff :
    (∃ r', step m position ins r = .ok r') ↔
      Admissible m ins ∧ popCount m ins ≤ r.stack.length := by
  constructor
  · rintro ⟨r', h⟩
    obtain ⟨hcallee, hpops, stored, pushed, hstored, hpushed, -⟩ := step_eq_ok.1 h
    have hlength := length_operands hpops
    refine ⟨⟨hcallee, fun hpos => ?_, fun hpos => ?_⟩, hpops⟩
    · exact store_isOk_iff.1 ⟨stored, hstored⟩ (by rw [hlength]; exact hpos)
    · exact pushAll_isOk_iff.1 ⟨pushed, hpushed⟩ hpos
  · rintro ⟨⟨hcallee, hstore, hload⟩, hpops⟩
    have hlength := length_operands hpops
    obtain ⟨stored, hstored⟩ := (store_isOk_iff (r := taken m position ins r)).2
      fun hpos => hstore (by rw [← hlength]; exact hpos)
    obtain ⟨pushed, hpushed⟩ := (pushAll_isOk_iff (r := stored)).2 hload
    exact ⟨_, step_eq_ok.2 ⟨hcallee, hpops, stored, pushed, hstored, hpushed, rfl⟩⟩

/-- **The stack behind a step**: the operands are gone and the new
numbers are on top, the last one first. -/
theorem step_stack (h : step m position ins r = .ok r') :
    r'.stack = (List.range' (r.values.length + 1) (pushCount ins)).reverse ++
      r.stack.drop (popCount m ins) := by
  obtain ⟨-, -, stored, pushed, hstored, hpushed, rfl⟩ := step_eq_ok.1 h
  obtain ⟨hstack₁, hvalues₁, -⟩ := store_eq_ok hstored
  obtain ⟨-, hstack₂, -⟩ := pushAll_eq_ok hpushed
  rw [writeBackAll_eq, (foldl_writeBack_values ..).1, hstack₂, hstack₁, hvalues₁,
    length_taken_values, taken_stack]

/-- What is on the stack behind a step is new or was left there. -/
theorem mem_stack_of_step (h : step m position ins r = .ok r') {id : ValueId}
    (hid : id ∈ r'.stack) :
    r.values.length < id ∧ id ≤ r.values.length + pushCount ins ∨
      id ∈ r.stack.drop (popCount m ins) := by
  rw [step_stack h] at hid
  rcases List.mem_append.1 hid with hid | hid
  · rw [List.mem_reverse, List.mem_range'_1, Nat.add_right_comm] at hid
    exact Or.inl ⟨hid.1, Nat.le_of_lt_succ hid.2⟩
  · exact Or.inr hid

/-- A load stores nothing, so it reads its slot as it was before. -/
theorem pushedParents_storeWrites {operands inputs : List ValueId}
    (h : r'.writes = storeWrites ins operands ++ r.writes) :
    pushedParents ins inputs r' = pushedParents ins inputs r := by
  cases hslot : ins.opcode.slot with
  | none => simp only [pushedParents, hslot]
  | some access =>
    obtain ⟨use, space⟩ := access
    cases use with
    | store => simp only [pushedParents, hslot]
    | load =>
      have hnone : storeWrites ins operands = [] := by simp only [storeWrites, hslot]
      rw [hnone, List.nil_append] at h
      exact pushedParents_congr h

/-- **The table behind a step**: the inputs are marked, and behind the
values that were there stand those that are pushed and those that are
written back. -/
theorem step_values (h : step m position ins r = .ok r') :
    r'.values = (taken m position ins r).values ++
      (List.replicate (pushCount ins)
          { producer := position, parents := pushedParents ins (inputs m ins r) r } ++
        List.replicate (writtenOperands ins (operands m ins r)).length
          { producer := position, parents := inputs m ins r }) := by
  obtain ⟨-, -, stored, pushed, hstored, hpushed, rfl⟩ := step_eq_ok.1 h
  obtain ⟨-, hvalues₁, hwrites₁⟩ := store_eq_ok hstored
  obtain ⟨-, -, hvalues₂⟩ := pushAll_eq_ok hpushed
  rw [taken_writes] at hwrites₁
  rw [writeBackAll_eq, (foldl_writeBack_values ..).2, hvalues₂, hvalues₁,
    pushedParents_storeWrites hwrites₁, List.append_assoc]

theorem length_step_values (h : step m position ins r = .ok r') :
    r'.values.length = r.values.length + pushCount ins +
      (writtenOperands ins (operands m ins r)).length := by
  rw [step_values h, List.length_append, List.length_append, List.length_replicate,
    List.length_replicate, length_taken_values, Nat.add_assoc]

theorem length_values_le_of_step (h : step m position ins r = .ok r') :
    r.values.length ≤ r'.values.length := by
  rw [length_step_values h, Nat.add_assoc]
  exact Nat.le_add_right _ _

theorem value?_eq_some {id : ValueId} {v : Value} (h : r.value? id = some v) :
    0 < id ∧ id ≤ r.values.length := by
  cases id with
  | zero => cases h
  | succ k => exact ⟨Nat.succ_pos k, (List.getElem?_eq_some_iff.1 h).1⟩

theorem exists_value? {id : ValueId} (hpos : 0 < id) (hle : id ≤ r.values.length) :
    ∃ v, r.value? id = some v := by
  cases id with
  | zero => exact absurd hpos (Nat.lt_irrefl 0)
  | succ k => exact ⟨_, List.getElem?_eq_getElem hle⟩

/-- A value that was there before is marked if it is taken. -/
theorem value?_step_of_le (h : step m position ins r = .ok r') {id : ValueId}
    (hid : id ≤ r.values.length) :
    r'.value? id = (r.value? id).map
      (marked position (taking (withRoles ins (operands m ins r))) id) := by
  cases id with
  | zero => rfl
  | succ k =>
    have hk : k < (taken m position ins r).values.length := by
      rw [length_taken_values]
      exact hid
    rw [value?, value?, step_values h, List.getElem?_append_left hk, taken_values]

/-- A value that is pushed. -/
theorem value?_step_of_pushed (h : step m position ins r = .ok r') {id : ValueId}
    (hlt : r.values.length < id) (hle : id ≤ r.values.length + pushCount ins) :
    r'.value? id =
      some { producer := position, parents := pushedParents ins (inputs m ins r) r } := by
  cases id with
  | zero => exact absurd hlt (Nat.not_lt_zero _)
  | succ k =>
    have hk : (taken m position ins r).values.length ≤ k := by
      rw [length_taken_values]
      exact Nat.le_of_lt_succ hlt
    have hcount : k - (taken m position ins r).values.length < pushCount ins := by
      rw [length_taken_values]
      exact Nat.sub_lt_left_of_lt_add (Nat.le_of_lt_succ hlt) hle
    rw [value?, step_values h, List.getElem?_append_right hk,
      List.getElem?_append_left (by rwa [List.length_replicate]),
      List.getElem?_replicate_of_lt hcount]

/-- A value that is written back. -/
theorem value?_step_of_written (h : step m position ins r = .ok r') {id : ValueId}
    (hlt : r.values.length + pushCount ins < id) (hle : id ≤ r'.values.length) :
    r'.value? id = some { producer := position, parents := inputs m ins r } := by
  rw [length_step_values h] at hle
  cases id with
  | zero => exact absurd hlt (Nat.not_lt_zero _)
  | succ k =>
    have hk : r.values.length + pushCount ins ≤ k := Nat.le_of_lt_succ hlt
    have hcount : k - r.values.length - pushCount ins <
        (writtenOperands ins (operands m ins r)).length := by
      have : k < r.values.length + pushCount ins +
        (writtenOperands ins (operands m ins r)).length := hle
      omega
    rw [value?, step_values h,
      List.getElem?_append_right (by rw [length_taken_values]; omega),
      List.getElem?_append_right (by rw [length_taken_values, List.length_replicate]; omega),
      length_taken_values, List.length_replicate, List.getElem?_replicate_of_lt hcount]

/-- What a step creates comes from its instruction, and nothing took it. -/
theorem value?_step_of_gt (h : step m position ins r = .ok r') {id : ValueId} {v : Value}
    (hlt : r.values.length < id) (hv : r'.value? id = some v) :
    v.producer = position ∧ v.consumer = none ∧ v.receiver = false := by
  rcases Nat.lt_or_ge (r.values.length + pushCount ins) id with hwritten | hpushed
  · rw [value?_step_of_written h hwritten (value?_eq_some hv).2] at hv
    cases hv
    exact ⟨rfl, rfl, rfl⟩
  · rw [value?_step_of_pushed h hlt hpushed] at hv
    cases hv
    exact ⟨rfl, rfl, rfl⟩

/-- What an instruction writes to slots, in order. -/
def slotWrites (m : Method) (ins : Instruction) (r : Replay) : List SlotWrite :=
  storeWrites ins (operands m ins r) ++
    writeBacks m r (r.values.length + pushCount ins + 1)
      (writtenOperands ins (operands m ins r))

theorem reverse_storeWrites (operands : List ValueId) :
    (storeWrites ins operands).reverse = storeWrites ins operands := by
  unfold storeWrites
  split <;> rfl

theorem mem_operands_of_mem_writtenOperands {operands : List ValueId} {id : ValueId}
    (h : id ∈ writtenOperands ins operands) : id ∈ operands := by
  rw [writtenOperands] at h
  split at h
  · obtain ⟨a, ha, rfl⟩ := List.mem_map.1 h
    have harguments := (List.of_mem_zip (List.mem_filter.1 ha).1).1
    split at harguments
    · exact List.mem_of_mem_drop harguments
    · exact harguments
  · exact absurd h List.not_mem_nil

theorem mem_stack_of_mem_operands {id : ValueId} (h : id ∈ operands m ins r) : id ∈ r.stack :=
  List.mem_of_mem_take (List.mem_reverse.1 h)

/-- **The log behind a step**, when the stack holds numbers of values. -/
theorem step_writes (h : step m position ins r = .ok r')
    (hids : ∀ id ∈ r.stack, id ≤ r.values.length) :
    r'.writes = (slotWrites m ins r).reverse ++ r.writes := by
  obtain ⟨-, -, stored, pushed, hstored, hpushed, rfl⟩ := step_eq_ok.1 h
  obtain ⟨-, hvalues₁, hwrites₁⟩ := store_eq_ok hstored
  obtain ⟨hwrites₂, -, hvalues₂⟩ := pushAll_eq_ok hpushed
  have hlength : pushed.values.length = r.values.length + pushCount ins := by
    rw [hvalues₂, hvalues₁, List.length_append, List.length_replicate, length_taken_values]
  have hwritten : ∀ id ∈ writtenOperands ins (operands m ins r), id ≤ r.values.length :=
    fun id hid => hids id (mem_stack_of_mem_operands (mem_operands_of_mem_writtenOperands hid))
  -- the slots are read off the values behind the pushes, where the producers are the same
  have hslots : ∀ number, writeBacks m pushed number (writtenOperands ins (operands m ins r)) =
      writeBacks m r number (writtenOperands ins (operands m ins r)) := by
    refine fun number => writeBacks_congr fun id hid => ?_
    have hid' : id ≤ stored.values.length := by
      rw [hvalues₁, length_taken_values]
      exact hwritten id hid
    rw [value?_of_append hid' hvalues₂]
    cases id with
    | zero => rfl
    | succ k => simp only [value?, hvalues₁, taken_values, Option.map_map, Function.comp_def,
        marked_producer]
  rw [writeBackAll_eq, foldl_writeBack_writes _ _ _ fun id hid => ?_, hslots, hwrites₂, hwrites₁,
    taken_writes, slotWrites, List.reverse_append, reverse_storeWrites, List.append_assoc, hlength]
  rw [hlength]
  exact Nat.le_add_right_of_le (hwritten id hid)

/-! ## Runs -/

theorem steps_cons_eq_ok {path : List Nat} (hins : m.body[position]? = some ins) :
    steps m r (position :: path) = .ok r' ↔
      ∃ r₁, step m position ins r = .ok r₁ ∧ steps m r₁ path = .ok r' := by
  simp only [steps, hins]
  cases hstep : step m position ins r with
  | ok r₁ => simp
  | error fault => simp

/-- A run can be cut at any place. -/
theorem steps_append_eq_ok {u v : List Nat} :
    steps m r (u ++ v) = .ok r' ↔ ∃ r₁, steps m r u = .ok r₁ ∧ steps m r₁ v = .ok r' := by
  induction u generalizing r with
  | nil => simp [steps]
  | cons p u ih =>
    cases hins : m.body[p]? with
    | none => simp only [List.cons_append, steps, hins, ih]
    | some ins =>
      simp only [List.cons_append, steps_cons_eq_ok hins, ih]
      constructor
      · rintro ⟨r₁, hstep, r₂, hu, hv⟩
        exact ⟨r₂, ⟨r₁, hstep, hu⟩, hv⟩
      · rintro ⟨r₂, ⟨r₁, hstep, hu⟩, hv⟩
        exact ⟨r₁, hstep, r₂, hu, hv⟩

/-- A method with too many slots is not replayed. -/
theorem run_of_not_hasRoom {path : List Nat} (h : hasRoom m = false) :
    run m path = .error .noRoom := by
  rw [run, h]
  rfl

/-- A method whose slots have room is replayed step by step. -/
theorem run_of_hasRoom {path : List Nat} (h : hasRoom m = true) :
    run m path = (steps m {} path).bind fun r =>
      if r.stack.isEmpty then .ok r else .error (.leftOver r.stack.length) := by
  rw [run, h]
  rfl

/-- A path is replayed when there is room for the slots, its steps are
made and the stack is empty behind them. -/
theorem run_eq_ok {path : List Nat} :
    run m path = .ok r ↔ hasRoom m = true ∧ steps m {} path = .ok r ∧ r.stack = [] := by
  cases hroom : hasRoom m with
  | false => simp [run_of_not_hasRoom hroom]
  | true =>
    rw [run_of_hasRoom hroom]
    constructor
    · intro h
      obtain ⟨r₁, hsteps, h⟩ := bind_eq_ok.1 h
      split at h
      · rename_i hempty
        cases h
        exact ⟨rfl, hsteps, List.isEmpty_iff.1 hempty⟩
      · cases h
    · rintro ⟨-, hsteps, hempty⟩
      refine bind_eq_ok.2 ⟨r, hsteps, ?_⟩
      rw [hempty]
      rfl

theorem steps_of_run {path : List Nat} (h : run m path = .ok r) : steps m {} path = .ok r :=
  (run_eq_ok.1 h).2.1

end SmellCheck.Replay
