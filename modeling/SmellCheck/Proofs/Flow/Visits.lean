import SmellCheck.Proofs.Flow.Step
/-!
# The visits of a replay

A replay is the sequence of its visits to instructions, each with the
state that it finds (`Trace`). What every step keeps holds at every visit
(`Trace.invariant`). First among these is that the stack is in order
(`Sound`): the numbers on it grow from the bottom to the top, each of
them names a value, and none of these values was taken before.
-/

namespace SmellCheck.Replay

variable {m : Method} {r r' s : Replay}

/-- A visit to an instruction, with the state that it finds. -/
structure Visit where
  position : Nat
  ins : Instruction
  state : Replay

/-- The operands that a visit takes from the stack, the deepest first. -/
def Visit.operands (m : Method) (v : Visit) : List ValueId :=
  Replay.operands m v.ins v.state

/-- The operand at the index is the receiver of a call. -/
def isReceiver (ins : Instruction) (index : Nat) : Bool :=
  index == 0 && ins.method?.any (passesReceiver ins.opcode)

/-- The parameter of the callee that the operand at the index is for. -/
def parameter? (ins : Instruction) (index : Nat) : Option Param :=
  ins.method?.bind fun callee =>
    if passesReceiver ins.opcode callee then
      match index with
      | 0 => none
      | k + 1 => callee.params[k]?
    else callee.params[index]?

/-- The visits of a replay from a state, as far as it goes. -/
def visits (m : Method) (r : Replay) : List Nat → List Visit
  | [] => []
  | position :: path =>
    match m.body[position]? with
    | none => visits m r path
    | some ins =>
      ⟨position, ins, r⟩ ::
        match step m position ins r with
        | .ok r => visits m r path
        | .error _ => []

/-- **A replay by its visits**, from the state before the first one to
the state behind the last one. -/
inductive Trace (m : Method) : Replay → List Visit → Replay → Prop
  | nil (r : Replay) : Trace m r [] r
  | cons {v : Visit} {vs : List Visit} {r s : Replay}
      (hins : m.body[v.position]? = some v.ins)
      (hstep : step m v.position v.ins v.state = .ok r) (hrest : Trace m r vs s) :
      Trace m v.state (v :: vs) s

/-- Operands that are chosen by their index are chosen by what stands
beside them. -/
theorem map_filter_zipIdx {β : Type} {ids : List ValueId} {tags : List β} {f : Nat → Option β}
    {start : Nat} (h : ∀ k, f (start + k) = tags[k]?) (test : β → Bool) :
    ((ids.zipIdx start).filter fun a => (f a.2).any test).map (·.1) =
      ((ids.zip tags).filter (test ·.2)).map (·.1) := by
  induction ids generalizing tags start with
  | nil => rfl
  | cons id ids ih =>
    have hfirst : f start = tags[0]? := h 0
    have hshift : ∀ k, f (start + 1 + k) = tags.tail[k]? := by
      intro k
      rw [Nat.add_assoc, Nat.add_comm 1 k, List.getElem?_tail]
      exact h (k + 1)
    have hrest := ih hshift
    rw [List.zipIdx_cons]
    cases tags with
    | nil =>
      rw [List.getElem?_nil] at hfirst
      simpa [hfirst] using hrest
    | cons tag tags =>
      rw [List.getElem?_cons_zero] at hfirst
      cases htest : test tag <;> simpa [hfirst, htest] using hrest

/-! ## Visits and steps -/

theorem trace_of_steps {path : List Nat} (h : steps m r path = .ok s) :
    Trace m r (visits m r path) s := by
  induction path generalizing r with
  | nil =>
    cases h
    exact .nil _
  | cons p path ih =>
    cases hins : m.body[p]? with
    | none =>
      simp only [steps, visits, hins] at h ⊢
      exact ih h
    | some ins =>
      obtain ⟨r₁, hstep, hrest⟩ := (steps_cons_eq_ok hins).1 h
      simp only [visits, hins, hstep]
      exact .cons (v := ⟨p, ins, r⟩) hins hstep (ih hrest)

/-- A path of instructions is visited as it stands. -/
theorem map_position_visits {path : List Nat} (h : steps m r path = .ok s)
    (hpath : ∀ p ∈ path, ∃ ins, m.body[p]? = some ins) :
    (visits m r path).map (·.position) = path := by
  induction path generalizing r with
  | nil => rfl
  | cons p path ih =>
    obtain ⟨⟨ins, hins⟩, hpath⟩ := List.forall_mem_cons.1 hpath
    obtain ⟨r₁, hstep, hrest⟩ := (steps_cons_eq_ok hins).1 h
    simp only [visits, hins, hstep, List.map_cons, ih hrest hpath]

namespace Trace

variable {us vs : List Visit} {v : Visit}

theorem steps_eq_ok (h : Trace m r vs s) : steps m r (vs.map (·.position)) = .ok s := by
  induction h with
  | nil r => rfl
  | cons hins hstep _ ih => exact (steps_cons_eq_ok hins).2 ⟨_, hstep, ih⟩

/-- What a trace starts with. -/
theorem of_cons (h : Trace m r (v :: vs) s) :
    v.state = r ∧ m.body[v.position]? = some v.ins ∧
      ∃ r', step m v.position v.ins v.state = .ok r' ∧ Trace m r' vs s := by
  cases h with
  | cons hins hstep hrest => exact ⟨rfl, hins, _, hstep, hrest⟩

/-- A trace can be cut before any visit. -/
theorem split (h : Trace m r (us ++ v :: vs) s) :
    Trace m r us v.state ∧ Trace m v.state (v :: vs) s := by
  induction us generalizing r with
  | nil =>
    obtain ⟨rfl, -⟩ := h.of_cons
    exact ⟨.nil _, h⟩
  | cons u us ih =>
    obtain ⟨rfl, hins, r', hstep, hrest⟩ := h.of_cons
    obtain ⟨hus, hvs⟩ := ih hrest
    exact ⟨.cons hins hstep hus, hvs⟩

/-- **What every step keeps holds at every visit and at the end.** -/
theorem invariant {I : Replay → Prop} (h : Trace m r vs s) (hr : I r)
    (hkeep : ∀ {position ins r r'}, m.body[position]? = some ins →
      step m position ins r = .ok r' → I r → I r') :
    (∀ v ∈ vs, I v.state) ∧ I s := by
  induction h with
  | nil r => exact ⟨fun v hv => absurd hv List.not_mem_nil, hr⟩
  | cons hins hstep _ ih =>
    obtain ⟨hvs, hs⟩ := ih (hkeep hins hstep hr)
    exact ⟨List.forall_mem_cons.2 ⟨hr, hvs⟩, hs⟩

end Trace

/-! ## The stack in order -/

/-- **The stack is in order**: its numbers grow towards the top, and they
name values that were not taken. -/
structure Sound (r : Replay) : Prop where
  sorted : r.stack.Pairwise (· > ·)
  pos : ∀ id ∈ r.stack, 0 < id
  le : ∀ id ∈ r.stack, id ≤ r.values.length
  untaken : ∀ id ∈ r.stack, ∀ v, r.value? id = some v → v.consumer = none ∧ v.receiver = false

theorem sound_empty : Sound {} :=
  ⟨.nil, fun _ h => absurd h List.not_mem_nil, fun _ h => absurd h List.not_mem_nil,
    fun _ h => absurd h List.not_mem_nil⟩

theorem map_fst_zip_sublist (ids : List ValueId) (roles : List Role) :
    ((ids.zip roles).map (·.1)).Sublist ids := by
  induction ids generalizing roles with
  | nil => exact List.nil_sublist _
  | cons id ids ih =>
    cases roles with
    | nil => exact List.nil_sublist _
    | cons role roles => exact (ih roles).cons_cons id

/-- Roles are given to the operands in order. -/
theorem map_fst_withRoles_sublist (ins : Instruction) (operands : List ValueId) :
    ((withRoles ins operands).map (·.1)).Sublist operands := by
  unfold withRoles
  split
  · exact map_fst_zip_sublist operands _
  · simp [Function.comp_def]

/-- What is taken are operands. -/
theorem mem_operands_of_mem_taking {ins : Instruction} {operands : List ValueId} {id : ValueId}
    (h : id ∈ (taking (withRoles ins operands)).map (·.1)) : id ∈ operands :=
  ((List.filter_sublist.map _).trans (map_fst_withRoles_sublist ins operands)).subset h

namespace Sound

variable {ins : Instruction} {position : Nat}

/-- The operands grow in the order of the arguments. -/
theorem sorted_operands (hr : Sound r) : (operands m ins r).Pairwise (· < ·) :=
  List.pairwise_reverse.2 (hr.sorted.sublist (List.take_sublist _ _))

/-- What stays on the stack is below the operands. -/
theorem lt_of_mem_operands (hr : Sound r) {i j : ValueId} (hi : i ∈ r.stack.drop (popCount m ins))
    (hj : j ∈ operands m ins r) : i < j := by
  have hsorted := hr.sorted
  rw [← List.take_append_drop (popCount m ins) r.stack, List.pairwise_append] at hsorted
  exact hsorted.2.2 j (List.mem_reverse.1 hj) i hi

/-- **A step keeps the stack in order.** -/
theorem step (hr : Sound r) (h : Replay.step m position ins r = .ok r') : Sound r' := by
  have hold : ∀ id ∈ r.stack.drop (popCount m ins), id ∈ r.stack := fun _ => List.mem_of_mem_drop
  refine ⟨?_, fun id hid => ?_, fun id hid => ?_, fun id hid v hv => ?_⟩
  · rw [step_stack h, List.pairwise_append]
    refine ⟨List.pairwise_reverse.2 List.pairwise_lt_range', ?_, fun i hi j hj => ?_⟩
    · exact hr.sorted.sublist (List.drop_sublist _ _)
    · rw [List.mem_reverse, List.mem_range'_1] at hi
      exact Nat.lt_of_le_of_lt (hr.le j (hold j hj)) hi.1
  · rcases mem_stack_of_step h hid with hnew | hid
    · exact Nat.zero_lt_of_lt hnew.1
    · exact hr.pos id (hold id hid)
  · rcases mem_stack_of_step h hid with hnew | hid
    · rw [length_step_values h]
      exact Nat.le_add_right_of_le hnew.2
    · exact Nat.le_trans (hr.le id (hold id hid)) (length_values_le_of_step h)
  · rcases mem_stack_of_step h hid with hnew | hid
    · exact (value?_step_of_gt h hnew.1 hv).2
    · -- what stays is not among the operands, so it is not marked
      have hmarked : id ∉ (taking (withRoles ins (operands m ins r))).map (·.1) := fun hmem =>
        Nat.lt_irrefl id (hr.lt_of_mem_operands hid (mem_operands_of_mem_taking hmem))
      rw [value?_step_of_le h (hr.le id (hold id hid)), marked_of_notMem hmarked,
        Option.map_id_fun'] at hv
      exact hr.untaken id (hold id hid) v hv

end Sound

/-- The stack is in order throughout a trace. -/
theorem Trace.sound {vs : List Visit} (h : Trace m r vs s) (hr : Sound r) :
    (∀ v ∈ vs, Sound v.state) ∧ Sound s :=
  h.invariant hr fun _ hstep hr => hr.step hstep

end SmellCheck.Replay
