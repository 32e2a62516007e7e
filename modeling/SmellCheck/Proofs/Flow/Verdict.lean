import SmellCheck.Proofs.Flow.Indexing
/-!
# What decides a replay

Whether a path is replayed can be told without replaying it. There has to
be room for the slots of the method (`hasRoom`). What its instructions
push less what they pop, added up along the path, is the height of the
stack (`netHeight`). A replay fails at the first
instruction that pops more than this, or touches a slot that the method
does not have, and it fails behind the last one if the height is not zero
there (`FirstFault`). The stack comes before the slot: an instruction at
which both are wrong is reported for the stack.
-/

namespace SmellCheck.Replay

variable {m : Method} {position : Nat} {ins : Instruction} {r r' : Replay} {path : List Nat}

/-! ## Heights and faults -/

/-- What the instruction at a position adds to the height of the stack. -/
def heightChange (m : Method) (position : Nat) : Int :=
  match m.body[position]? with
  | some ins => (pushCount ins : Int) - popCount m ins
  | none => 0

/-- **The height behind a path**: what its instructions push less what
they pop. -/
def netHeight (m : Method) : List Nat → Int
  | [] => 0
  | position :: path => heightChange m position + netHeight m path

/-- **The instruction fits on a stack of the height**: it pops no more
than that, and what slot it touches is one of the method. -/
structure Fits (m : Method) (height : Int) (ins : Instruction) : Prop where
  covered : (popCount m ins : Int) ≤ height
  slot_lt : ∀ access, ins.opcode.slot = some access →
    ∃ index, ins.slotIndex? = some index ∧ index < m.slots access.space

/-- Every instruction of the path fits on the height behind those before
it. -/
def FitsThroughout (m : Method) (path : List Nat) : Prop :=
  ∀ u p v ins, path = u ++ p :: v → m.body[p]? = some ins → Fits m (netHeight m u) ins

/-- **What is wrong with an instruction that does not fit**, and the cause
that is given for it. -/
inductive Misfit (m : Method) (height : Int) (ins : Instruction) : String → StepFault → Prop
  | underflow (hpops : height < popCount m ins) :
      Misfit m height ins stackImbalanceText (.underflow (popCount m ins) height.toNat)
  /-- The slot comes second. -/
  | badSlot {access : SlotAccess} {index : Nat} (hpops : (popCount m ins : Int) ≤ height)
      (hslot : ins.opcode.slot = some access) (hindex : ins.slotIndex? = some index)
      (hlt : m.slots access.space ≤ index) :
      Misfit m height ins invalidArgumentText (.badSlot index (m.slots access.space))

/-- **The first fault of a path**, and the cause that is given for it. -/
inductive FirstFault (m : Method) (path : List Nat) : String → ReplayFault → Prop
  | step {u v : List Nat} {p : Nat} {ins : Instruction} {cause : String} {fault : StepFault}
      (hpath : path = u ++ p :: v) (hbefore : FitsThroughout m u) (hins : m.body[p]? = some ins)
      (hfault : Misfit m (netHeight m u) ins cause fault) :
      FirstFault m path cause (.step (ins.text m.body) fault)
  | leftOver (hpath : FitsThroughout m path) (hheight : netHeight m path ≠ 0) :
      FirstFault m path stackImbalanceText (.leftOver (netHeight m path).toNat)

/-- The message about the first fault ends with its cause. -/
theorem FirstFault.exists_message {cause : String} {fault : ReplayFault}
    (h : FirstFault m path cause fault) : ∃ start, fault.message = start ++ cause := by
  cases h with
  | step _ _ _ hfault =>
    cases hfault with
    | underflow => exact ⟨_, (String.append_assoc ..).symm⟩
    | badSlot => exact ⟨_, (String.append_assoc ..).symm⟩
  | leftOver => exact ⟨_, rfl⟩

/-! ## One step -/

/-- The slot of an instruction in order is given. -/
theorem exists_slotIndex? (hins : ins.WellFormed m.body) {access : SlotAccess}
    (hslot : ins.opcode.slot = some access) : ∃ index, ins.slotIndex? = some index := by
  have hsome : ¬ ins.opcode.slot.isNone = true := by
    rw [hslot]
    exact Bool.false_ne_true
  rw [Instruction.slotIndex?, if_neg hsome]
  cases himplicit : ins.opcode.implicitSlot with
  | some index => exact ⟨index, rfl⟩
  | none =>
    -- the opcode names no slot, so its kind asks for an operand that does
    have hkind := Opcode.of_slot hins.opcode_mem hslot
    rw [himplicit] at hkind
    have hadmitted := hins.operand_admitted
    cases hoperand : ins.operand with
    | slot index => exact ⟨index, rfl⟩
    | _ =>
      rw [hoperand] at hadmitted
      rcases hkind with hkind | hkind | hkind
      · cases hkind
      · rw [hkind] at hadmitted
        cases hadmitted
      · rw [hkind] at hadmitted
        cases hadmitted

theorem slotOf_eq_error {access : SlotAccess} {index : Nat} (hindex : ins.slotIndex? = some index)
    (hlt : m.slots access.space ≤ index) :
    slotOf m access ins = .error (.badSlot index (m.slots access.space)) := by
  rw [slotOf, hindex]
  exact if_neg (Nat.not_lt.2 hlt)

theorem slotReady_of_lt {use : SlotUse}
    (h : ∀ access, ins.opcode.slot = some access →
      ∃ index, ins.slotIndex? = some index ∧ index < m.slots access.space) :
    SlotReady m ins use := by
  intro space hslot
  obtain ⟨index, hindex, hlt⟩ := h _ hslot
  exact ⟨index, by rw [slotOf, hindex]; exact if_pos hlt⟩

/-- An instruction in order that calls has its callee. -/
theorem callee_of_wellFormed (hins : ins.WellFormed m.body) :
    ¬ (ins.opcode.flow == .call && ins.method?.isNone) = true := by
  intro h
  obtain ⟨hflow, hnone⟩ := Bool.and_eq_true_iff.1 h
  obtain ⟨callee, hcallee⟩ := Instruction.exists_method hins.operand_admitted
    ((Opcode.of_flow_call hins.opcode_mem).2 (eq_of_beq hflow))
  rw [hcallee] at hnone
  cases hnone

/-- **The step of an instruction that fits is made.** -/
theorem exists_step_of_fits (hins : ins.WellFormed m.body) (h : Fits m r.stack.length ins) :
    ∃ r', step m position ins r = .ok r' :=
  step_isOk_iff.2 ⟨⟨callee_of_wellFormed hins, fun _ => slotReady_of_lt h.slot_lt,
    fun _ => slotReady_of_lt h.slot_lt⟩, Int.ofNat_le.1 h.covered⟩

/-- **The step of one that does not fit fails** with what is wrong. -/
theorem step_eq_error_of_misfit (hins : ins.WellFormed m.body) {cause : String}
    {fault : StepFault} (h : Misfit m r.stack.length ins cause fault) :
    step m position ins r = .error fault := by
  rw [step, if_neg (callee_of_wellFormed hins)]
  cases h with
  | underflow hpops =>
    simp only [if_pos (Int.ofNat_lt.1 hpops), Int.toNat_natCast]
    rfl
  | @badSlot access index hpops hslot hindex hlt =>
    have hpops := Int.ofNat_le.1 hpops
    have hslotOf := slotOf_eq_error hindex hlt
    simp only [if_neg (Nat.not_lt.2 hpops)]
    obtain ⟨use, space⟩ := access
    -- a store fails before anything is pushed, a load at the first push
    cases use with
    | store =>
      obtain ⟨id, hid⟩ := List.length_eq_one_iff.1
        ((length_operands hpops).trans (popCount_of_store hins.opcode_mem hslot))
      rw [operands] at hid
      simp only [hid, store, hslot, hslotOf]
      rfl
    | load =>
      obtain ⟨-, hpush⟩ := counts_of_load (m := m) hins.opcode_mem hslot
      simp only [store, hslot, hpush, pushAll, parentsOf, hslotOf]
      rfl

theorem fits_or_misfit (hins : ins.WellFormed m.body) (height : Int) :
    Fits m height ins ∨ ∃ cause fault, Misfit m height ins cause fault := by
  -- the slot is looked at only where the stack is high enough
  by_cases hpops : (popCount m ins : Int) ≤ height
  · cases hslot : ins.opcode.slot with
    | none =>
      refine Or.inl ⟨hpops, fun access h => ?_⟩
      cases hslot.symm.trans h
    | some access =>
      obtain ⟨index, hindex⟩ := exists_slotIndex? hins hslot
      by_cases hlt : index < m.slots access.space
      · refine Or.inl ⟨hpops, fun access' h => ⟨index, hindex, ?_⟩⟩
        cases hslot.symm.trans h
        exact hlt
      · exact Or.inr ⟨_, _, .badSlot hpops hslot hindex (Nat.le_of_not_lt hlt)⟩
  · exact Or.inr ⟨_, _, .underflow (Int.lt_of_not_ge hpops)⟩

/-- **A step is made exactly if the instruction fits.** -/
theorem step_isOk_iff_fits (hins : ins.WellFormed m.body) :
    (∃ r', step m position ins r = .ok r') ↔ Fits m r.stack.length ins := by
  refine ⟨?_, exists_step_of_fits hins⟩
  rintro ⟨r', h⟩
  rcases fits_or_misfit hins r.stack.length with hfits | ⟨cause, fault, hmisfit⟩
  · exact hfits
  · rw [step_eq_error_of_misfit hins hmisfit] at h
    cases h

/-- **It fails exactly with what is wrong with the instruction.** -/
theorem step_eq_error_iff (hins : ins.WellFormed m.body) {fault : StepFault} :
    step m position ins r = .error fault ↔ ∃ cause, Misfit m r.stack.length ins cause fault := by
  constructor
  · intro h
    rcases fits_or_misfit hins r.stack.length with hfits | ⟨cause, fault', hmisfit⟩
    · obtain ⟨r', hok⟩ : ∃ r', step m position ins r = .ok r' := exists_step_of_fits hins hfits
      rw [hok] at h
      cases h
    · rw [step_eq_error_of_misfit hins hmisfit] at h
      cases h
      exact ⟨cause, hmisfit⟩
  · rintro ⟨cause, h⟩
    exact step_eq_error_of_misfit hins h

/-! ## Steps and the height -/

theorem length_stack_of_step (hins : m.body[position]? = some ins)
    (h : step m position ins r = .ok r') :
    (r'.stack.length : Int) = r.stack.length + heightChange m position := by
  have hpops := (step_isOk_iff.1 ⟨r', h⟩).2
  rw [length_step_stack h, heightBehind, heightChange, hins]
  simp only
  omega

/-- **The stack has the height of the path.** -/
theorem length_stack_of_steps (h : steps m r path = .ok r') :
    (r'.stack.length : Int) = r.stack.length + netHeight m path := by
  induction path generalizing r with
  | nil =>
    cases h
    rw [netHeight, Int.add_zero]
  | cons p path ih =>
    cases hins : m.body[p]? with
    | none =>
      simp only [steps, hins] at h
      rw [ih h, netHeight, heightChange, hins, Int.zero_add]
    | some ins =>
      obtain ⟨r₁, hstep, hrest⟩ := (steps_cons_eq_ok hins).1 h
      rw [ih hrest, length_stack_of_step hins hstep, netHeight, Int.add_assoc]

/-- The steps of a path whose instructions fit are made. -/
theorem exists_steps_of_fits (hm : m.body.WellFormed)
    (h : ∀ u p v ins, path = u ++ p :: v → m.body[p]? = some ins →
      Fits m (r.stack.length + netHeight m u) ins) : ∃ r', steps m r path = .ok r' := by
  induction path generalizing r with
  | nil => exact ⟨r, rfl⟩
  | cons p path ih =>
    cases hins : m.body[p]? with
    | none =>
      simp only [steps, hins]
      refine ih fun u q v ins hpath hq => ?_
      have hfits := h (p :: u) q v ins (by rw [hpath]; rfl) hq
      rwa [netHeight, heightChange, hins, Int.zero_add] at hfits
    | some ins =>
      have hfits := h [] p path ins rfl hins
      rw [netHeight, Int.add_zero] at hfits
      obtain ⟨r₁, hstep⟩ : ∃ r₁, step m p ins r = .ok r₁ :=
        exists_step_of_fits (hm ins (List.mem_of_getElem? hins)) hfits
      obtain ⟨r', hrest⟩ := ih (r := r₁) fun u q v ins' hpath hq => by
        have hfits := h (p :: u) q v ins' (by rw [hpath]; rfl) hq
        rwa [netHeight, ← Int.add_assoc, ← length_stack_of_step hins hstep] at hfits
      exact ⟨r', (steps_cons_eq_ok hins).2 ⟨r₁, hstep, hrest⟩⟩

/-- **The steps of a path are made if its instructions fit.** -/
theorem steps_isOk_iff_fitsThroughout (hm : m.body.WellFormed) :
    (∃ r, steps m {} path = .ok r) ↔ FitsThroughout m path := by
  constructor
  · rintro ⟨r, h⟩ u p v ins rfl hins
    obtain ⟨r₁, hu, hv⟩ := steps_append_eq_ok.1 h
    obtain ⟨r₂, hstep, -⟩ := (steps_cons_eq_ok hins).1 hv
    have hfits := (step_isOk_iff_fits (hm ins (List.mem_of_getElem? hins))).1 ⟨r₂, hstep⟩
    rwa [length_stack_of_steps hu, List.length_nil, Int.natCast_zero, Int.zero_add] at hfits
  · intro h
    refine exists_steps_of_fits hm fun u p v ins hpath hins => ?_
    rw [List.length_nil, Int.natCast_zero, Int.zero_add]
    exact h u p v ins hpath hins

/-- Steps go on from where those before them got. -/
theorem steps_append_of_ok {u v : List Nat} (h : steps m r u = .ok r') :
    steps m r (u ++ v) = steps m r' v := by
  induction u generalizing r with
  | nil =>
    cases h
    rfl
  | cons p u ih =>
    cases hins : m.body[p]? with
    | none =>
      simp only [List.cons_append, steps, hins] at h ⊢
      exact ih h
    | some ins =>
      obtain ⟨r₁, hstep, hrest⟩ := (steps_cons_eq_ok hins).1 h
      simp only [List.cons_append, steps, hins, hstep]
      exact ih hrest

/-- Steps that fail do so at one of them, and those before it are made. -/
theorem exists_step_of_steps_eq_error {fault : ReplayFault} (h : steps m r path = .error fault) :
    ∃ u p v ins r₁ cause, path = u ++ p :: v ∧ steps m r u = .ok r₁ ∧ m.body[p]? = some ins ∧
      step m p ins r₁ = .error cause ∧ fault = .step (ins.text m.body) cause := by
  induction path generalizing r with
  | nil => cases h
  | cons q path ih =>
    cases hq : m.body[q]? with
    | none =>
      simp only [steps, hq] at h
      obtain ⟨u, p, v, ins, r₁, cause, rfl, hu, hfault⟩ := ih h
      exact ⟨q :: u, p, v, ins, r₁, cause, rfl, by simpa only [steps, hq] using hu, hfault⟩
    | some ins =>
      cases hstep : step m q ins r with
      | error cause =>
        simp only [steps, hq, hstep] at h
        cases h
        exact ⟨[], q, path, ins, r, cause, rfl, rfl, hq, hstep, rfl⟩
      | ok r' =>
        simp only [steps, hq, hstep] at h
        obtain ⟨u, p, v, ins', r₁, cause, rfl, hu, hfault⟩ := ih h
        exact ⟨q :: u, p, v, ins', r₁, cause, rfl,
          (steps_cons_eq_ok hq).2 ⟨r', hstep, hu⟩, hfault⟩

/-! ## Runs -/

/-- A path is replayed exactly if there is room for the slots, its
instructions fit and nothing is left. -/
theorem run_isOk_iff (hm : m.body.WellFormed) :
    (∃ r, run m path = .ok r) ↔
      hasRoom m = true ∧ FitsThroughout m path ∧ netHeight m path = 0 := by
  rw [← steps_isOk_iff_fitsThroughout hm]
  constructor
  · rintro ⟨r, h⟩
    obtain ⟨hroom, hsteps, hempty⟩ := run_eq_ok.1 h
    have hheight := length_stack_of_steps hsteps
    rw [hempty] at hheight
    simp only [List.length_nil] at hheight
    exact ⟨hroom, ⟨r, hsteps⟩, by omega⟩
  · rintro ⟨hroom, ⟨r, hsteps⟩, hzero⟩
    have hheight := length_stack_of_steps hsteps
    rw [hzero] at hheight
    simp only [List.length_nil] at hheight
    exact ⟨r, run_eq_ok.2 ⟨hroom, hsteps, List.length_eq_zero_iff.1 (by omega)⟩⟩

/-- **A replay fails with the first fault of the path.** -/
theorem run_eq_error_of_firstFault (hm : m.body.WellFormed) (hroom : hasRoom m = true)
    {cause : String} {fault : ReplayFault} (h : FirstFault m path cause fault) :
    run m path = .error fault := by
  cases h with
  | @step u v p ins cause fault hpath hbefore hins hfault =>
    obtain ⟨r, hu⟩ := (steps_isOk_iff_fitsThroughout hm).2 hbefore
    have hheight : netHeight m u = r.stack.length := by
      simpa using (length_stack_of_steps hu).symm
    have hstep : step m p ins r = .error fault :=
      step_eq_error_of_misfit (hm ins (List.mem_of_getElem? hins)) (hheight ▸ hfault)
    have hsteps : steps m {} path = .error (.step (ins.text m.body) fault) := by
      rw [hpath, steps_append_of_ok hu]
      simp only [steps, hins, hstep]
    rw [run_of_hasRoom hroom, hsteps]
    rfl
  | leftOver hpath hheight =>
    obtain ⟨r, hsteps⟩ := (steps_isOk_iff_fitsThroughout hm).2 hpath
    have hlength : netHeight m path = r.stack.length := by
      simpa using (length_stack_of_steps hsteps).symm
    have hne : ¬ r.stack.isEmpty = true := by
      rw [List.isEmpty_iff_length_eq_zero]
      omega
    rw [hlength, Int.toNat_natCast, run_of_hasRoom hroom, hsteps]
    exact if_neg hne

/-- What a replay fails with is the first fault of the path. -/
theorem exists_firstFault (hm : m.body.WellFormed) (hroom : hasRoom m = true)
    {fault : ReplayFault} (h : run m path = .error fault) :
    ∃ cause, FirstFault m path cause fault := by
  cases hsteps : steps m {} path with
  | error fault' =>
    rw [run_of_hasRoom hroom, hsteps] at h
    cases h
    obtain ⟨u, p, v, ins, r, stepFault, hpath, hu, hins, hstep, rfl⟩ :=
      exists_step_of_steps_eq_error hsteps
    obtain ⟨cause, hmisfit⟩ := (step_eq_error_iff (hm ins (List.mem_of_getElem? hins))).1 hstep
    have hheight : (r.stack.length : Int) = netHeight m u := by
      simpa using length_stack_of_steps hu
    exact ⟨cause, .step hpath ((steps_isOk_iff_fitsThroughout hm).1 ⟨r, hu⟩) hins
      (hheight ▸ hmisfit)⟩
  | ok r =>
    -- all steps were made, so only what is left can be wrong
    have hpath := (steps_isOk_iff_fitsThroughout hm).1 ⟨r, hsteps⟩
    by_cases hzero : netHeight m path = 0
    · obtain ⟨r', hr'⟩ := (run_isOk_iff hm).2 ⟨hroom, hpath, hzero⟩
      rw [hr'] at h
      cases h
    · have hleft := FirstFault.leftOver hpath hzero
      rw [run_eq_error_of_firstFault hm hroom hleft] at h
      cases h
      exact ⟨_, hleft⟩

/-- **Room, heights and slots decide a replay.** Over any positions of the
control-flow graph of a method, and so on every path of it: the replay
gets through if and only if there is room for the slots, each instruction
pops no more than the height before it and touches a slot of the method,
and the height is zero at the end. Without room no step is made. Otherwise
it fails with the first fault, for the stack before the slot, and the
message ends with its cause.

There are no more values than the path creates, which on an enumerated
path is at most twice what the body creates. As long as their numbers fit
into words, parameters, operands, arguments and values are looked up in
range throughout the replay. -/
theorem run_decided_by_heights {d : ListingDocument} {a : Assembly} {c : ControlFlow}
    (ha : Assembly.ofDocument d = .ok a) (hm : m ∈ a.methods)
    (hc : ControlFlow.ofMethod m = .ok c) (hpath : ∀ p ∈ path, p ∈ c.graph.nodes) :
    ((∃ r, run m path = .ok r) ↔
      hasRoom m = true ∧ FitsThroughout m path ∧ netHeight m path = 0) ∧
    (hasRoom m = false → run m path = .error .noRoom) ∧
    (hasRoom m = true →
      ∀ fault, run m path = .error fault ↔ ∃ cause, FirstFault m path cause fault) ∧
    (∀ cause fault, FirstFault m path cause fault → ∃ start, fault.message = start ++ cause) ∧
    (∀ r, run m path = .ok r → r.values.length ≤ created m path) ∧
    (path ∈ c.paths → created m path ≤ 2 * created m (List.range m.body.length)) ∧
    (created m path < valueLimit → ∀ v ∈ visits m {} path,
      indexedStep m v.position v.ins v.state = some (step m v.position v.ins v.state)) := by
  have hbody := Assembly.wellFormed_of_ofDocument ha hm
  refine ⟨run_isOk_iff hbody, run_of_not_hasRoom, fun hroom fault =>
    ⟨exists_firstFault hbody hroom, ?_⟩, fun cause fault h => h.exists_message, fun r hr => ?_,
    fun hmem => ?_, fun hbound v hv => indexedStep_of_mem_visits hbody hc hpath hbound hv⟩
  · rintro ⟨cause, h⟩
    exact run_eq_error_of_firstFault hbody hroom h
  · simpa using length_values_of_steps (steps_of_run hr)
  · exact created_le_of_count_le ((ControlFlow.mem_paths_iff hbody hc).1 hmem).2

/-- A call that writes through an argument behind its receiver, and then a
store to a slot that the method does not have. -/
def strayStoreListing : ListingDocument :=
  Assembly.testDocument 1 [("void T::M()",
    "ldnull\nldloca.s 0\ncallvirt instance bool S::Take(out int32&)\nstloc.1\nstloc.1\nret")]

/-- The first store is reported for its slot. On an empty stack the second
is reported for the stack. -/
theorem run_decided_by_heights_strayStoreListing :
    ∃ a m c, Assembly.ofDocument strayStoreListing = .ok a ∧ m ∈ a.methods ∧
      ControlFlow.ofMethod m = .ok c ∧ List.range 6 ∈ c.paths ∧ netHeight m (List.range 4) = 0 ∧
      (∃ cause, FirstFault m (List.range 6) cause
        (.step "IL_0003: stloc.1" (.badSlot 1 1))) ∧
      (∃ cause, FirstFault m [4, 5] cause (.step "IL_0004: stloc.1" (.underflow 1 0))) ∧
      created m (List.range 6) = 4 ∧ (visits m {} (List.range 6)).length = 4 ∧
      ∀ v ∈ visits m {} (List.range 6),
        indexedStep m v.position v.ins v.state = some (step m v.position v.ins v.state) := by
  obtain ⟨a, m, ha, hm, h⟩ := Assembly.exists_method_of_any strayStoreListing
    (fun m => ControlFlow.follows m [[1], [2], [3], [4], [5], []] &&
      (ControlFlow.mk m
        ⟨0, [(0, [1]), (1, [2]), (2, [3]), (3, [4]), (4, [5]), (5, [])]⟩).paths.any
          (· == List.range 6) &&
      netHeight m (List.range 4) == 0 &&
      decide (run m (List.range 6) = .error (.step "IL_0003: stloc.1" (.badSlot 1 1))) &&
      decide (run m [4, 5] = .error (.step "IL_0004: stloc.1" (.underflow 1 0))) &&
      hasRoom m && created m (List.range 6) == 4 && (visits m {} (List.range 6)).length == 4)
    (by decide +kernel)
  simp only [Bool.and_eq_true, List.any_eq_true, beq_iff_eq, decide_eq_true_eq] at h
  obtain ⟨⟨⟨⟨⟨⟨⟨hfollows, path, hmem, rfl⟩, hzero⟩, hrun⟩, hrun'⟩, hroom⟩, hcreated⟩, hvisits⟩ := h
  have hc := ControlFlow.ofMethod_of_follows
    [(0, [1]), (1, [2]), (2, [3]), (3, [4]), (4, [5]), (5, [])] hfollows
    (by simp [explore, Adjacency.has, Adjacency.fresh])
  have hnodes : ∀ p ∈ List.range 6,
      p ∈ Digraph.nodes ⟨0, [(0, [1]), (1, [2]), (2, [3]), (3, [4]), (4, [5]), (5, [])]⟩ := by
    decide
  have hend : ∀ p ∈ [4, 5], p ∈ List.range 6 := by
    decide
  obtain ⟨-, -, hfault, -, -, -, hindexed⟩ := run_decided_by_heights ha hm hc hnodes
  obtain ⟨-, -, hfault', -⟩ := run_decided_by_heights ha hm hc fun p hp => hnodes p (hend p hp)
  exact ⟨a, m, _, ha, hm, hc, hmem, hzero, (hfault hroom _).1 hrun, (hfault' hroom _).1 hrun',
    hcreated, hvisits, hindexed (by rw [hcreated]; decide)⟩

/-- A method that returns at once and has more local slots than there is
room for. -/
def wideListing : ListingDocument :=
  Assembly.testDocument (2 ^ 60) [("void T::M()", "ret")]

/-- **Without room for the slots nothing is replayed**, though every
instruction fits and the height is zero at the end. -/
theorem exists_noRoom_of_fits :
    ∃ a m c, Assembly.ofDocument wideListing = .ok a ∧ m ∈ a.methods ∧ m.locals = 2 ^ 60 ∧
      ControlFlow.ofMethod m = .ok c ∧ [0] ∈ c.paths ∧ FitsThroughout m [0] ∧
      netHeight m [0] = 0 ∧ run m [0] = .error .noRoom := by
  obtain ⟨a, m, ha, hm, h⟩ := Assembly.exists_method_of_any wideListing
    (fun m => m.locals == 2 ^ 60 && ControlFlow.follows m [[]] &&
      (ControlFlow.mk m ⟨0, [(0, [])]⟩).paths.any (· == [0]) &&
      (steps m {} [0]).toOption.isSome && netHeight m [0] == 0 && !hasRoom m)
    (by decide +kernel)
  simp only [Bool.and_eq_true, List.any_eq_true, beq_iff_eq, Bool.not_eq_true',
    Option.isSome_iff_exists, toOption_eq_some] at h
  obtain ⟨⟨⟨⟨⟨hlocals, hfollows⟩, path, hmem, rfl⟩, hsteps⟩, hheight⟩, hroom⟩ := h
  have hbody := Assembly.wellFormed_of_ofDocument ha hm
  have hc := ControlFlow.ofMethod_of_follows [(0, [])] hfollows
    (by simp [explore, Adjacency.has, Adjacency.fresh])
  exact ⟨a, m, _, ha, hm, hlocals, hc, hmem, (steps_isOk_iff_fitsThroughout hbody).1 hsteps,
    hheight, run_of_not_hasRoom hroom⟩

end SmellCheck.Replay
