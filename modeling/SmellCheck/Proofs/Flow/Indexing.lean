import SmellCheck.Proofs.Flow.Consumption
import SmellCheck.Proofs.Flow.Slots
import Mathlib.Algebra.BigOperators.Ring.Finset
import Mathlib.Algebra.Order.BigOperators.Group.Finset
/-!
# Steps by index

A step pairs the operands of a call with its parameters, and pairing
lists cannot fail. Here the same step looks everything up by an index: an
operand's parameter in the list of parameters, what a store takes among
the operands, what a parameter refers to among the arguments, and a value
in the table by its number, as far as a word of 32 bits keeps it. A
look-up can be out of range, and then there is no result.

None of them is out of range at a visit of a replay, wherever control may
go on from the instruction, as long as the path creates fewer than 2^31
values (`indexedStep_of_mem_visits`). This rests on three facts: a call
takes as many operands as it has receivers and parameters, a store takes
one operand, and what is on the stack names values. How many values a
path creates can be told from its instructions (`created`).
-/

namespace SmellCheck.Replay

variable {m : Method} {position : Nat} {ins : Instruction} {r r' : Replay}

/-! ## Look-ups -/

/-- How many operands a call takes in front of its arguments. -/
def receivers (ins : Instruction) : Nat :=
  if ins.method?.any (passesReceiver ins.opcode) then 1 else 0

/-- The role of the operand at an index. Behind the receiver it is looked
up in the list of parameters. -/
def roleAt? (ins : Instruction) (index : Nat) : Option Role :=
  match ins.method? with
  | none => some .plain
  | some callee =>
    if index < receivers ins then some .receiver
    else callee.params[index - receivers ins]?.map fun p =>
      if p.kind = .out then .outArgument else .plain

/-- There are so many numbers from zero on in a signed word of 32 bits. -/
def valueLimit : Nat := 2 ^ 31

/-- What a signed word of 32 bits keeps of a number. -/
def word32 (n : Nat) : Int :=
  Int.bmod n (2 ^ 32)

/-- The index of a value in the table of values, with the root in front of
it: its number, as a word keeps it. -/
def index? (r : Replay) (id : ValueId) : Option Nat :=
  if 0 ≤ word32 id ∧ word32 id ≤ r.values.length then some (word32 id).toNat else none

/-- Takes the operand that stands at an index: its value is looked up and
marked, and it is added to the inputs. -/
def takeAt? (position : Nat) (ins : Instruction) (state : Replay × List ValueId)
    (operand : ValueId × Nat) : Option (Replay × List ValueId) := do
  let role ← roleAt? ins operand.2
  if role = .outArgument then return state
  let _ ← state.1.index? operand.1
  return (state.1.consume position (role == .receiver) operand.1, state.2 ++ [operand.1])

/-- Stores the operand at the first index. -/
def storeAt? (m : Method) (ins : Instruction) (operands : List ValueId) (r : Replay) :
    Option (Except StepFault Replay) :=
  match ins.opcode.slot with
  | some ⟨.store, space⟩ => do
    let id ← operands[0]?
    return (slotOf m ⟨.store, space⟩ ins).map fun index => r.write space index id
  | _ => some (.ok r)

/-- The callee writes through the parameter that stands at an index. The
argument at this index is looked up, and so is its value. -/
def writeBackAt? (m : Method) (position : Nat) (arguments inputs : List ValueId) (r : Replay)
    (param : Param × Nat) : Option Replay :=
  if param.1.isByRef then
    arguments[param.2]?.bind fun argument =>
      (r.index? argument).map fun _ => writeBack m position inputs r argument
  else some r

/-- The callee writes through its parameters. The operands have to reach
to the first argument. -/
def writeBacksAt? (m : Method) (position : Nat) (ins : Instruction)
    (operands inputs : List ValueId) (r : Replay) : Option Replay :=
  match ins.method? with
  | none => some r
  | some callee =>
    if receivers ins ≤ operands.length then
      callee.params.zipIdx.foldlM
        (writeBackAt? m position (operands.drop (receivers ins)) inputs) r
    else none

/-- Pushes, and then writes through the parameters. -/
def pushAt? (m : Method) (position : Nat) (ins : Instruction) (operands inputs : List ValueId)
    (r : Replay) : Option (Except StepFault Replay) :=
  match pushAll m position ins inputs (pushCount ins) r with
  | .error fault => some (.error fault)
  | .ok pushed => (writeBacksAt? m position ins operands inputs pushed).map .ok

/-- **The step by index**; `none` if a look-up is out of range. -/
def indexedStep (m : Method) (position : Nat) (ins : Instruction) (r : Replay) :
    Option (Except StepFault Replay) :=
  if ins.opcode.flow == .call && ins.method?.isNone then some (.error .noCallee)
  else if r.stack.length < popCount m ins then
    some (.error (.underflow (popCount m ins) r.stack.length))
  else do
    let popped := (r.stack.take (popCount m ins)).reverse
    let (marked, inputs) ← popped.zipIdx.foldlM (takeAt? position ins)
      ({ r with stack := r.stack.drop (popCount m ins) }, [])
    match ← storeAt? m ins popped marked with
    | .error fault => return .error fault
    | .ok stored => pushAt? m position ins popped inputs stored

/-! ## Taking -/

/-- **A number below the limit is its own index.** -/
theorem index?_of_le {id : ValueId} (hlt : id < valueLimit) (hle : id ≤ r.values.length) :
    r.index? id = some id := by
  have hword : word32 id = id := by
    have hlt : (id : Int) < 0x80000000 := Int.ofNat_lt.2 hlt
    exact Int.bmod_eq_of_le (by omega) (by omega)
  rw [index?, hword, if_pos ⟨Int.natCast_nonneg id, Int.ofNat_le.2 hle⟩, Int.toNat_natCast]

theorem length_consume_values (asReceiver : Bool) (id : ValueId) :
    (r.consume position asReceiver id).values.length = r.values.length := by
  cases id with
  | zero => rfl
  | succ k => exact List.length_modify ..

theorem receivers_eq {callee : Signature} (hcallee : ins.method? = some callee) :
    receivers ins = if passesReceiver ins.opcode callee then 1 else 0 := by
  rw [receivers, hcallee, Option.any_some]

/-- The role that is looked up is the one that is listed. -/
theorem roleAt?_eq {callee : Signature} (hcallee : ins.method? = some callee) (index : Nat) :
    roleAt? ins index = (callRoles ins.opcode callee)[index]? := by
  rw [roleAt?, hcallee, callRoles, receivers_eq hcallee]
  cases hreceiver : passesReceiver ins.opcode callee with
  | false => simp
  | true =>
    cases index with
    | zero => simp
    | succ k => simp

theorem roleAt?_of_withRoles {operands : List ValueId} {k : Nat} {a : ValueId × Role}
    (h : (withRoles ins operands)[k]? = some a) : roleAt? ins k = some a.2 := by
  rw [withRoles] at h
  cases hcallee : ins.method? with
  | none =>
    rw [hcallee, List.getElem?_map] at h
    obtain ⟨id, -, rfl⟩ := Option.map_eq_some_iff.1 h
    rw [roleAt?, hcallee]
  | some callee =>
    rw [hcallee] at h
    rw [roleAt?_eq hcallee]
    exact (List.getElem?_zip_eq_some.1 h).2

/-- Every operand of an instruction in order has a role. -/
theorem map_fst_withRoles {operands : List ValueId} (hins : ins.WellFormed m.body)
    (hlength : operands.length = popCount m ins) :
    (withRoles ins operands).map (·.1) = operands := by
  rw [withRoles]
  cases hcallee : ins.method? with
  | none => simp [Function.comp_def]
  | some callee =>
    refine List.map_fst_zip ?_
    rcases popCount_of_method hins hcallee with hpop | hpop
    · rw [hlength, hpop]
    · rw [hlength, hpop]
      exact Nat.zero_le _

/-- **Operands that name values and have roles are taken**, one index
after the other. -/
theorem foldlM_takeAt? {roles : List (ValueId × Role)} {start : Nat} {inputs : List ValueId}
    (hroles : ∀ k a, roles[k]? = some a → roleAt? ins (start + k) = some a.2)
    (hvalues : ∀ a ∈ roles, a.1 < valueLimit ∧ a.1 ≤ r.values.length) :
    ((roles.map (·.1)).zipIdx start).foldlM (takeAt? position ins) (r, inputs) =
      some (r.consumeAll position roles, inputs ++ consumed roles) := by
  induction roles generalizing start r inputs with
  | nil => simp [consumeAll, consumed]
  | cons a roles ih =>
    obtain ⟨id, role⟩ := a
    obtain ⟨⟨hlt, hle⟩, hnamed⟩ := List.forall_mem_cons.1 hvalues
    have hrole : roleAt? ins start = some role := hroles 0 (id, role) rfl
    have hrest : ∀ k a, roles[k]? = some a → roleAt? ins (start + 1 + k) = some a.2 := by
      intro k a ha
      rw [Nat.add_assoc, Nat.add_comm 1 k]
      exact hroles (k + 1) a ha
    have hindex := index?_of_le hlt hle
    rw [List.map_cons, List.zipIdx_cons, List.foldlM_cons]
    -- what is handed on to be written has no value looked up
    by_cases hout : role = .outArgument
    · subst hout
      have htake : takeAt? position ins (r, inputs) (id, start) = some (r, inputs) := by
        simp [takeAt?, hrole]
      rw [htake, Option.bind_eq_bind, Option.bind_some, ih hrest hnamed]
      rfl
    · have htake : takeAt? position ins (r, inputs) (id, start) =
          some (r.consume position (role == .receiver) id, inputs ++ [id]) := by
        simp [takeAt?, hrole, hout, hindex]
      have hmarked : ∀ b ∈ roles,
          b.1 < valueLimit ∧ b.1 ≤ (r.consume position (role == .receiver) id).values.length := by
        intro b hb
        rw [length_consume_values]
        exact hnamed b hb
      rw [htake, Option.bind_eq_bind, Option.bind_some, ih hrest hmarked]
      simp [consumeAll, consumed, hout]

/-! ## Storing and writing back -/

/-- **A store finds its operand.** -/
theorem storeAt?_eq (hins : ins.opcode ∈ Opcode.all) {operands : List ValueId}
    (hlength : operands.length = popCount m ins) :
    storeAt? m ins operands r = some (store m ins operands r) := by
  cases hslot : ins.opcode.slot with
  | none => simp [storeAt?, store, hslot]
  | some access =>
    obtain ⟨use, space⟩ := access
    cases use with
    | load => simp [storeAt?, store, hslot]
    | store =>
      rw [popCount_of_store hins hslot] at hlength
      obtain ⟨id, rfl⟩ := List.length_eq_one_iff.1 hlength
      simp only [storeAt?, store, hslot]
      cases slotOf m ⟨.store, space⟩ ins <;> rfl

/-- **Parameters that have arguments, which name values, are written
through**, one index after the other. -/
theorem foldlM_writeBackAt? {pairs : List (ValueId × Param)} {start : Nat}
    {arguments inputs : List ValueId}
    (harguments : ∀ k a, pairs[k]? = some a → arguments[start + k]? = some a.1)
    (hvalues : ∀ a ∈ pairs, a.1 < valueLimit ∧ a.1 ≤ r.values.length) :
    ((pairs.map (·.2)).zipIdx start).foldlM (writeBackAt? m position arguments inputs) r =
      some (((pairs.filter (·.2.isByRef)).map (·.1)).foldl (writeBack m position inputs) r) := by
  induction pairs generalizing start r with
  | nil => rfl
  | cons a pairs ih =>
    obtain ⟨argument, param⟩ := a
    obtain ⟨⟨hlt, hle⟩, hnamed⟩ := List.forall_mem_cons.1 hvalues
    have hargument : arguments[start]? = some argument := harguments 0 (argument, param) rfl
    have hrest : ∀ k a, pairs[k]? = some a → arguments[start + 1 + k]? = some a.1 := by
      intro k a ha
      rw [Nat.add_assoc, Nat.add_comm 1 k]
      exact harguments (k + 1) a ha
    have hindex := index?_of_le hlt hle
    rw [List.map_cons, List.zipIdx_cons, List.foldlM_cons]
    cases href : param.isByRef with
    | false =>
      have hwrite : writeBackAt? m position arguments inputs r (param, start) = some r := by
        simp [writeBackAt?, href]
      rw [hwrite, Option.bind_eq_bind, Option.bind_some, ih hrest hnamed]
      simp [href]
    | true =>
      have hwrite : writeBackAt? m position arguments inputs r (param, start) =
          some (writeBack m position inputs r argument) := by
        rw [writeBackAt?, if_pos href, hargument, Option.bind_some, hindex, Option.map_some]
      have hkept : ∀ b ∈ pairs,
          b.1 < valueLimit ∧ b.1 ≤ (writeBack m position inputs r argument).values.length := by
        intro b hb
        obtain ⟨hlt, hle⟩ := hnamed b hb
        rw [(writeBack_values m position inputs r argument).2, List.length_append]
        exact ⟨hlt, Nat.le_add_right_of_le hle⟩
      rw [hwrite, Option.bind_eq_bind, Option.bind_some, ih hrest hkept]
      simp [href]

/-- A call that control goes on from takes its receiver and an operand for
each parameter. -/
theorem popCount_eq_receivers_add {callee : Signature} (hins : ins.WellFormed m.body)
    (hflow : ins.opcode.flow ≠ .unknown) (hcallee : ins.method? = some callee) :
    popCount m ins = receivers ins + callee.params.length := by
  have hkind := Instruction.operand_eq_method hins.operand_admitted hcallee
  obtain ⟨-, hret, -⟩ := Opcode.of_operand_method hins.opcode_mem hkind
  have hpop := Opcode.pop_of_operand_method hins.opcode_mem hkind hflow
  rw [popCount, if_neg (by rw [hret]; exact Bool.false_ne_true), receivers_eq hcallee]
  simp only [hpop, hcallee, Nat.add_comm]

/-- **Every parameter that is written through finds its argument.** -/
theorem writeBacksAt?_eq (hins : ins.WellFormed m.body) (hflow : ins.opcode.flow ≠ .unknown)
    {operands inputs : List ValueId} (hlength : operands.length = popCount m ins)
    (hvalues : ∀ id ∈ operands, id < valueLimit ∧ id ≤ r.values.length) :
    writeBacksAt? m position ins operands inputs r =
      some (writeBackAll m position ins operands inputs r) := by
  cases hcallee : ins.method? with
  | none => simp [writeBacksAt?, writeBackAll, hcallee]
  | some callee =>
    have hpop := popCount_eq_receivers_add hins hflow hcallee
    have hdrop : (if passesReceiver ins.opcode callee then operands.drop 1 else operands) =
        operands.drop (receivers ins) := by
      rw [receivers_eq hcallee]
      split <;> rfl
    have harguments : (operands.drop (receivers ins)).length = callee.params.length := by
      rw [List.length_drop]
      omega
    simp only [writeBacksAt?, writeBackAll, hcallee, writtenArguments, hdrop]
    rw [if_pos (by omega)]
    have hparams : ((operands.drop (receivers ins)).zip callee.params).map (·.2) =
        callee.params := List.map_snd_zip (by rw [harguments])
    nth_rewrite 1 [← hparams]
    refine foldlM_writeBackAt? (fun k a ha => ?_) fun a ha => ?_
    · rw [Nat.zero_add]
      exact (List.getElem?_zip_eq_some.1 ha).1
    · exact hvalues a.1 (List.mem_of_mem_drop (List.of_mem_zip ha).1)

theorem pushAt?_eq (hins : ins.WellFormed m.body) (hflow : ins.opcode.flow ≠ .unknown)
    {operands inputs : List ValueId} (hlength : operands.length = popCount m ins)
    (hvalues : ∀ id ∈ operands, id < valueLimit ∧ id ≤ r.values.length) :
    pushAt? m position ins operands inputs r =
      some (pushAll m position ins inputs (pushCount ins) r >>= fun pushed =>
        pure (writeBackAll m position ins operands inputs pushed)) := by
  rw [pushAt?]
  cases hpushed : pushAll m position ins inputs (pushCount ins) r with
  | error fault => rfl
  | ok pushed =>
    -- pushing gives new numbers and takes none away
    have hnamed : ∀ id ∈ operands, id < valueLimit ∧ id ≤ pushed.values.length := by
      intro id hid
      obtain ⟨hlt, hle⟩ := hvalues id hid
      rw [(pushAll_eq_ok hpushed).2.2, List.length_append]
      exact ⟨hlt, Nat.le_add_right_of_le hle⟩
    simp only [writeBacksAt?_eq hins hflow hlength hnamed]
    rfl

/-! ## The step as a whole -/

/-- **The step by index is the step**, as long as the values have numbers
below the limit. -/
theorem indexedStep_eq (hins : ins.WellFormed m.body) (hflow : ins.opcode.flow ≠ .unknown)
    (hr : Sound r) (hbound : r.values.length < valueLimit) :
    indexedStep m position ins r = some (step m position ins r) := by
  rw [indexedStep, step]
  by_cases hcall : (ins.opcode.flow == .call && ins.method?.isNone) = true
  · rw [if_pos hcall, if_pos hcall]
    rfl
  rw [if_neg hcall, if_neg hcall]
  by_cases hpops : r.stack.length < popCount m ins
  · simp only [if_pos hpops]
    rfl
  have hlength := length_operands (Nat.le_of_not_lt hpops)
  have hvalues : ∀ id ∈ operands m ins r, id < valueLimit ∧ id ≤ r.values.length := by
    intro id hid
    have hle := hr.le id (mem_stack_of_mem_operands hid)
    exact ⟨Nat.lt_of_le_of_lt hle hbound, hle⟩
  have hnames := map_fst_withRoles hins hlength
  -- every operand has a role, so taking them by index takes them all
  have htake : (operands m ins r).zipIdx.foldlM (takeAt? position ins)
      ({ r with stack := r.stack.drop (popCount m ins) }, []) =
        some (taken m position ins r, inputs m ins r) := by
    rw [taken, inputs]
    nth_rewrite 1 [← hnames]
    refine foldlM_takeAt? (fun k a ha => ?_) fun a ha => ?_
    · rw [Nat.zero_add]
      exact roleAt?_of_withRoles ha
    · exact hvalues a.1 (hnames ▸ List.mem_map_of_mem ha)
  simp only [if_neg hpops]
  -- the operands are named on both sides, so that taking and storing can be rewritten in turn
  change ((operands m ins r).zipIdx.foldlM (takeAt? position ins)
    ({ r with stack := r.stack.drop (popCount m ins) }, []) >>= _) =
      some (store m ins (operands m ins r) (taken m position ins r) >>= _)
  rw [htake, Option.bind_eq_bind, Option.bind_some]
  change (storeAt? m ins (operands m ins r) (taken m position ins r) >>= _) = _
  rw [storeAt?_eq hins.opcode_mem hlength, Option.bind_eq_bind, Option.bind_some]
  cases hstored : store m ins (operands m ins r) (taken m position ins r) with
  | error fault => rfl
  | ok stored =>
    refine pushAt?_eq hins hflow hlength fun id hid => ?_
    rw [(store_eq_ok hstored).2.1, length_taken_values]
    exact hvalues id hid

/-- **A visit is reached by the steps before it**, also the one that a
replay fails at. -/
theorem exists_steps_of_mem_visits {path : List Nat} {v : Visit} (hv : v ∈ visits m r path) :
    m.body[v.position]? = some v.ins ∧ ∃ before after,
      path = before ++ v.position :: after ∧ steps m r before = .ok v.state := by
  induction path generalizing r with
  | nil => exact absurd hv List.not_mem_nil
  | cons p path ih =>
    cases hins : m.body[p]? with
    | none =>
      simp only [visits, hins] at hv
      obtain ⟨hvisit, before, after, rfl, hsteps⟩ := ih hv
      refine ⟨hvisit, p :: before, after, rfl, ?_⟩
      simpa only [steps, hins] using hsteps
    | some ins =>
      simp only [visits, hins] at hv
      rcases List.mem_cons.1 hv with rfl | hv
      · exact ⟨hins, [], path, rfl, rfl⟩
      · cases hstep : step m p ins r with
        | error fault =>
          rw [hstep] at hv
          exact absurd hv List.not_mem_nil
        | ok r' =>
          rw [hstep] at hv
          obtain ⟨hvisit, before, after, rfl, hsteps⟩ := ih hv
          exact ⟨hvisit, p :: before, after, rfl, (steps_cons_eq_ok hins).2 ⟨r', hstep, hsteps⟩⟩

/-- Control goes on from what the graph of a method has, in one way or
another. -/
theorem flow_ne_unknown {c : ControlFlow} (hm : m.body.WellFormed)
    (hc : ControlFlow.ofMethod m = .ok c) (hp : position ∈ c.graph.nodes)
    (hins : m.body[position]? = some ins) : ins.opcode.flow ≠ .unknown := by
  intro hflow
  have hheads := ControlFlow.successors_eq_headsOf hm hc hp
  simp only [ControlFlow.successors, hins, ControlFlow.successors?, hflow] at hheads
  cases hheads

/-! ## How many values there are -/

/-- How many values an instruction creates at most: those that it pushes,
and one for each reference that it hands on. -/
def createdBy (ins : Instruction) : Nat :=
  pushCount ins + match ins.method? with
    | some callee => callee.params.countP (·.isByRef)
    | none => 0

/-- **How many values a path creates** at most. -/
def created (m : Method) : List Nat → Nat
  | [] => 0
  | position :: path =>
    (match m.body[position]? with
      | some ins => createdBy ins
      | none => 0) + created m path

/-- The references that are paired with arguments are some of all. -/
theorem countP_zip_le (p : Param → Bool) (arguments : List ValueId) (params : List Param) :
    (arguments.zip params).countP (fun a => p a.2) ≤ params.countP p := by
  induction arguments generalizing params with
  | nil => exact Nat.zero_le _
  | cons argument arguments ih =>
    cases params with
    | nil => exact Nat.le_refl _
    | cons param params =>
      rw [List.zip_cons_cons, List.countP_cons, List.countP_cons]
      exact Nat.add_le_add_right (ih params) _

theorem length_values_le_of_createdBy (h : step m position ins r = .ok r') :
    r'.values.length ≤ r.values.length + createdBy ins := by
  rw [length_step_values h, Nat.add_assoc, createdBy, writtenOperands]
  cases ins.method? with
  | none => exact Nat.le_refl _
  | some callee =>
    simp only [writtenArguments, List.length_map, ← List.countP_eq_length_filter]
    exact Nat.add_le_add_left (Nat.add_le_add_left (countP_zip_le ..) _) _

theorem created_append (m : Method) (before after : List Nat) :
    created m (before ++ after) = created m before + created m after := by
  induction before with
  | nil => rw [List.nil_append, created, Nat.zero_add]
  | cons p before ih => rw [List.cons_append, created, created, ih, Nat.add_assoc]

/-- **The values of a replay** are no more than its path creates. -/
theorem length_values_of_steps {path : List Nat} (h : steps m r path = .ok r') :
    r'.values.length ≤ r.values.length + created m path := by
  induction path generalizing r with
  | nil => cases h; exact Nat.le_refl _
  | cons p path ih =>
    cases hins : m.body[p]? with
    | none =>
      simp only [steps, hins] at h
      simpa only [created, hins, Nat.zero_add] using ih h
    | some ins =>
      obtain ⟨r₁, hstep, hrest⟩ := (steps_cons_eq_ok hins).1 h
      have hle := ih hrest
      have hstep := length_values_le_of_createdBy hstep
      simp only [created, hins]
      omega

/-- **A path that visits no position more often than `k` times** creates
at most `k` times what the body creates. -/
theorem created_le_of_count_le {path : List Nat} {k : Nat} (h : ∀ p, path.count p ≤ k) :
    created m path ≤ k * created m (List.range m.body.length) := by
  have hsum : ∀ path, created m path = (path.map fun p => created m [p]).sum := by
    intro path
    induction path with
    | nil => rfl
    | cons p path ih =>
      rw [created, ih, List.map_cons, List.sum_cons, created, created, Nat.add_zero]
  have hbody : created m (List.range m.body.length) =
      ∑ p ∈ Finset.range m.body.length, created m [p] := hsum _
  rw [hbody, Finset.mul_sum, hsum, Finset.sum_list_map_count]
  calc ∑ p ∈ path.toFinset, path.count p • created m [p]
      ≤ ∑ p ∈ path.toFinset, k * created m [p] :=
        Finset.sum_le_sum fun p _ => Nat.mul_le_mul_right _ (h p)
    _ ≤ ∑ p ∈ Finset.range m.body.length, k * created m [p] := by
        refine Finset.sum_le_sum_of_ne_zero fun p _ hne => Finset.mem_range.2 ?_
        -- behind the body there is nothing that creates a value
        by_contra hge
        rw [created, List.getElem?_eq_none (Nat.le_of_not_lt hge)] at hne
        exact hne (Nat.mul_zero k)

/-- **No look-up is out of range** in a replay over positions of the
control-flow graph, as long as the numbers of its values fit into words. -/
theorem indexedStep_of_mem_visits {c : ControlFlow} (hm : m.body.WellFormed)
    (hc : ControlFlow.ofMethod m = .ok c) {path : List Nat}
    (hpath : ∀ p ∈ path, p ∈ c.graph.nodes) (hbound : created m path < valueLimit) {v : Visit}
    (hv : v ∈ visits m {} path) :
    indexedStep m v.position v.ins v.state = some (step m v.position v.ins v.state) := by
  obtain ⟨hins, before, after, rfl, hsteps⟩ := exists_steps_of_mem_visits hv
  have hsound := ((trace_of_steps hsteps).sound sound_empty).2
  have hlength := length_values_of_steps hsteps
  rw [List.length_nil, Nat.zero_add] at hlength
  rw [created_append] at hbound
  exact indexedStep_eq (hm v.ins (List.mem_of_getElem? hins))
    (flow_ne_unknown hm hc (hpath _ (by simp)) hins) hsound (by omega)

end SmellCheck.Replay
