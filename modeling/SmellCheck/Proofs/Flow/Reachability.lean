import SmellCheck.Proofs.Digraph.Grouping
import SmellCheck.Proofs.Flow.Coverage
/-!
# What a control-flow graph holds

Where control can get in a body is told by its instructions alone: from
one to the next, unless it is a return, a throw or a branch that is always
taken, and to the targets it names (`Body.Step`). For a body that was read
from a listing these steps are the ones that the graph is explored along,
since an opcode transfers control in the way its operand says: targets
stand behind branches and switches, always at least one, and nowhere else
(`step_iff_leads`).

So the graph of a method has the positions that can be reached from its
entry. There is none if the body is empty, or if an instruction can be
reached that transfers control through a pointer to a method; such an
instruction elsewhere does no harm.
-/

namespace SmellCheck

open Relation

/-! ## Kinds of control transfer -/

namespace FlowKind

/-- Control may go on to the next instruction. -/
def fallsThrough : FlowKind → Bool
  | next | call | modifier | pause | condBranch => true
  | ret | throw | branch | unknown => false

/-- Control may go to a target. -/
def branches : FlowKind → Bool
  | branch | condBranch => true
  | _ => false

end FlowKind

/-- The instruction transfers control through a pointer to a method. -/
def Opcode.isPointerTransfer (op : Opcode) : Bool :=
  op.name == "jmp" || op.name == "calli"

namespace Opcode

/-- **The rows of the table** say by their operand whether they branch, and
by their name whether it is known where they lead. -/
theorem flow_of_mem_all : ∀ op ∈ all,
    (op.flow.branches = true ↔ op.operand = .branchTarget ∨ op.operand = .switchTable) ∧
    (op.flow = .unknown ↔ op.isPointerTransfer = true) := by
  decide +kernel

end Opcode

namespace Instruction.WellFormed

variable {body : Body} {ins : Instruction}

/-- **An instruction in order has targets exactly if it branches.** -/
theorem targets_eq_nil_iff (h : ins.WellFormed body) :
    ins.targets = [] ↔ ins.opcode.flow.branches = false := by
  have hrow := (Opcode.flow_of_mem_all ins.opcode h.opcode_mem).1
  have hadmits := h.operand_admitted
  rw [← Bool.not_eq_true, hrow, not_or]
  constructor
  · intro htargets
    constructor
    · intro hkind
      rw [hkind] at hadmits
      cases hoperand : ins.operand <;> simp_all [OperandKind.admits, targets]
    · intro hkind
      rw [hkind] at hadmits
      cases hoperand : ins.operand <;> simp_all [OperandKind.admits, targets]
  · rintro ⟨hbranch, hswitch⟩
    exact targets_eq_nil hadmits hbranch hswitch

end Instruction.WellFormed

/-! ## Steps of control -/

namespace Body

/-- **A step of control in a body**, from one position to another. -/
inductive Step (body : Body) : Nat → Nat → Prop
  /-- On to the next instruction, if there is one. -/
  | fall {p : Nat} {ins : Instruction} : body[p]? = some ins →
      ins.opcode.flow.fallsThrough = true → p + 1 < body.length → Step body p (p + 1)
  /-- To a target that the instruction names. -/
  | jump {p target : Nat} {ins : Instruction} : body[p]? = some ins → target ∈ ins.targets →
      Step body p target

/-- The position can be reached from the first one. -/
def Reached (body : Body) : Nat → Prop :=
  ReflTransGen body.Step 0

/-- An instruction can be reached that transfers control through a pointer
to a method. -/
def ReachesPointerTransfer (body : Body) : Prop :=
  ∃ p ins, body.Reached p ∧ body[p]? = some ins ∧ ins.opcode.isPointerTransfer = true

end Body

namespace ControlFlow

variable {m : Method} {c : ControlFlow} {p q : Nat} {ins : Instruction}

theorem mem_following : q ∈ following m.body p ↔ q = p + 1 ∧ p + 1 < m.body.length := by
  rw [following, Body.next?]
  split
  · rename_i hlt
    simp [hlt]
  · rename_i hge
    simp [hge]

/-- It is not known where a pointer leads. -/
theorem successors_eq_error (hins : m.body[p]? = some ins) (hflow : ins.opcode.flow = .unknown) :
    successors m p = .error (.unsupported m.fullName (ins.text m.body) .unknown) := by
  simp only [successors, hins, successors?, hflow]

/-- **The successors of an instruction in order**: the next one where
control falls through, and then its targets. -/
theorem successors_eq_ok (hins : m.body[p]? = some ins) (hwf : ins.WellFormed m.body)
    (hflow : ins.opcode.flow ≠ .unknown) : successors m p =
      .ok ((if ins.opcode.flow.fallsThrough then following m.body p else []) ++ ins.targets) := by
  have htargets := hwf.targets_eq_nil_iff
  simp only [successors, hins, successors?]
  cases hkind : ins.opcode.flow with
  | unknown => exact absurd hkind hflow
  | next | call | modifier | pause | ret | throw =>
    rw [hkind] at htargets
    simp [FlowKind.fallsThrough, htargets.2 rfl]
  | branch | condBranch => simp [FlowKind.fallsThrough]

/-- **Control goes along the steps of the body.** -/
theorem step_iff_leads (hm : m.body.WellFormed) : m.body.Step p q ↔ Leads m p q := by
  constructor
  · intro hstep
    cases hstep with
    | @fall ins hins hfalls hlt =>
      have hflow : ins.opcode.flow ≠ .unknown := fun h => by rw [h] at hfalls; cases hfalls
      refine ⟨_, successors_eq_ok hins (hm ins (List.mem_of_getElem? hins)) hflow, ?_⟩
      rw [if_pos hfalls]
      exact List.mem_append_left _ (mem_following.2 ⟨rfl, hlt⟩)
    | @jump _ ins hins htarget =>
      have hwf := hm ins (List.mem_of_getElem? hins)
      -- what has a target branches, so it is known where it leads
      have hflow : ins.opcode.flow ≠ .unknown := by
        intro h
        have hnil : ins.targets = [] := hwf.targets_eq_nil_iff.2 (by rw [h]; rfl)
        rw [hnil] at htarget
        exact absurd htarget List.not_mem_nil
      exact ⟨_, successors_eq_ok hins hwf hflow, List.mem_append_right _ htarget⟩
  · intro hleads
    obtain ⟨ins, hins⟩ := exists_instruction_of_leads hleads
    obtain ⟨heads, hheads, hq⟩ := hleads
    by_cases hflow : ins.opcode.flow = .unknown
    · rw [successors_eq_error hins hflow] at hheads
      cases hheads
    · rw [successors_eq_ok hins (hm ins (List.mem_of_getElem? hins)) hflow] at hheads
      cases hheads
      rcases List.mem_append.1 hq with hq | hq
      · split at hq
        · rename_i hfalls
          obtain ⟨rfl, hlt⟩ := mem_following.1 hq
          exact .fall hins hfalls hlt
        · exact absurd hq List.not_mem_nil
      · exact .jump hins hq

/-- **Where control ends**: at a return, at a throw, and where the body
ends without a branch. -/
theorem successors_eq_nil_iff (hins : m.body[p]? = some ins) (hwf : ins.WellFormed m.body)
    (hflow : ins.opcode.flow ≠ .unknown) : successors m p = .ok [] ↔
      ins.opcode.flow = .ret ∨ ins.opcode.flow = .throw ∨
        (p + 1 = m.body.length ∧ ins.opcode.flow.branches = false) := by
  have hp : p < m.body.length := (List.getElem?_eq_some_iff.1 hins).1
  have hlast : following m.body p = [] ↔ p + 1 = m.body.length := by
    rw [List.eq_nil_iff_forall_not_mem]
    constructor
    · intro h
      have hnext := h (p + 1)
      rw [mem_following] at hnext
      omega
    · intro h q hq
      have hq := mem_following.1 hq
      omega
  rw [successors_eq_ok hins hwf hflow, Except.ok.injEq, List.append_eq_nil_iff,
    hwf.targets_eq_nil_iff]
  cases hkind : ins.opcode.flow with
  | unknown => exact absurd hkind hflow
  | next | call | modifier | pause | ret | throw | branch | condBranch =>
    simp [FlowKind.fallsThrough, FlowKind.branches, hlast]

/-! ## The graph of a method -/

section Loaded

variable (hm : m.body.WellFormed)

include hm

/-- The exploration looks for what can be reached in the body. -/
theorem reaches_iff : Reaches (successors m) 0 p ↔ m.body.Reached p := by
  have hheads : (fun a b => b ∈ givenHeads (successors m) a) = m.body.Step := by
    funext a b
    rw [eq_iff_iff, step_iff_leads hm, Leads, givenHeads]
    cases successors m a with
    | error e => simp
    | ok heads => simp
  rw [Reaches, hheads]
  exact Iff.rfl

/-- Control does not leave the body. -/
theorem lt_length_of_reached (hne : m.body ≠ []) (hp : m.body.Reached p) : p < m.body.length := by
  rcases ReflTransGen.cases_tail hp with rfl | ⟨q, -, hstep⟩
  · exact List.length_pos_iff.2 hne
  · obtain ⟨heads, hheads, hmem⟩ := (step_iff_leads hm).1 hstep
    exact List.mem_range.1 (successors_subset hm hheads hmem)

theorem exists_instruction_of_reached (hne : m.body ≠ []) (hp : m.body.Reached p) :
    ∃ ins, m.body[p]? = some ins :=
  ⟨_, List.getElem?_eq_getElem (lt_length_of_reached hm hne hp)⟩

/-- The recursive search through the body visits each position that can be
reached once, so there is room for all of them. -/
theorem exists_search (hne : m.body ≠ []) :
    ∃ order, DepthFirst (givenHeads (successors m)) [] [0] order ∧
      (∀ p, p ∈ order ↔ m.body.Reached p) ∧ order.length ≤ m.body.length := by
  have hbound : ∀ p, Reaches (successors m) 0 p → p ∈ List.range m.body.length := fun p hp =>
    List.mem_range.2 (lt_length_of_reached hm hne ((reaches_iff hm).1 hp))
  have hfinite : {p | Reaches (successors m) 0 p}.Finite :=
    (List.finite_toSet (List.range m.body.length)).subset hbound
  obtain ⟨order, horder, hnodup, hmem⟩ := exists_depthFirst hfinite
  refine ⟨order, horder, fun p => (hmem p).trans (reaches_iff hm), ?_⟩
  have hsubset : order ⊆ List.range m.body.length := fun p hp => hbound p ((hmem p).1 hp)
  simpa using (hnodup.subperm hsubset).length_le

/-- **The exploration of a body comes to an end**, and more room does not
change what it finds. -/
theorem explore_successors_eq (hne : m.body ≠ []) {room : Nat} (hroom : m.body.length ≤ room) :
    explore (successors m) room [0] [] = explore (successors m) m.body.length [0] [] ∧
      ∀ found p, explore (successors m) room [0] [] ≠ .full found p := by
  obtain ⟨order, horder, -, hlength⟩ := exists_search hm hne
  have hexplore := explore_eq_ofOrder horder (hlength.trans hroom)
  refine ⟨hexplore.trans (explore_eq_ofOrder horder hlength).symm, fun found p hfull => ?_⟩
  exact explore_ne_full (List.range m.body.length)
    (fun p _ heads hheads => successors_subset hm hheads) (Explored.nil [0]) (List.nil_subset _)
    (List.cons_subset.2 ⟨List.mem_range.2 (List.length_pos_iff.2 hne), List.nil_subset _⟩)
    (by simpa using hroom) found p hfull

/-- **A pointer to a method that can be reached is refused.** -/
theorem ofMethod_eq_error (hne : m.body ≠ []) (h : m.body.ReachesPointerTransfer) :
    ∃ p ins, m.body.Reached p ∧ m.body[p]? = some ins ∧ ins.opcode.isPointerTransfer = true ∧
      ofMethod m = .error (.unsupported m.fullName (ins.text m.body) .unknown) := by
  obtain ⟨order, horder, hmem, hlength⟩ := exists_search hm hne
  obtain ⟨p, ins, hp, hins, hpointer⟩ := h
  have hrow := (Opcode.flow_of_mem_all _ (hm ins (List.mem_of_getElem? hins)).opcode_mem).2
  obtain ⟨before, q, after, e, rfl, hbefore, herror⟩ :=
    exists_first_error ((hmem p).2 hp) (successors_eq_error hins (hrow.2 hpointer))
  -- the first refusal in the order of the search is the one that is reported
  have hq : m.body.Reached q := (hmem q).1 (by simp)
  obtain ⟨ins', hins'⟩ := exists_instruction_of_reached hm hne hq
  have hwf' := hm ins' (List.mem_of_getElem? hins')
  have hflow : ins'.opcode.flow = .unknown := by
    by_contra hflow
    rw [successors_eq_ok hins' hwf' hflow] at herror
    cases herror
  refine ⟨q, ins', hq, hins', (Opcode.flow_of_mem_all _ hwf'.opcode_mem).2.1 hflow, ?_⟩
  rw [successors_eq_error hins' hflow] at herror
  cases herror
  have hempty : ¬ m.body.isEmpty = true := by simpa using hne
  rw [ofMethod, if_neg hempty, explore_eq_ofOrder horder hlength,
    Exploration.ofOrder_of_error hbefore (successors_eq_error hins' hflow)]

/-- **Without one there is a graph.** -/
theorem exists_ofMethod (hne : m.body ≠ []) (h : ¬ m.body.ReachesPointerTransfer) :
    ∃ c, ofMethod m = .ok c ∧ ∀ p, p ∈ c.graph.nodes ↔ m.body.Reached p := by
  obtain ⟨order, horder, hmem, hlength⟩ := exists_search hm hne
  have hok : ∀ p ∈ order, ∃ heads, successors m p = .ok heads := by
    intro p hp
    have hreached := (hmem p).1 hp
    obtain ⟨ins, hins⟩ := exists_instruction_of_reached hm hne hreached
    have hwf := hm ins (List.mem_of_getElem? hins)
    refine ⟨_, successors_eq_ok hins hwf fun hflow => h ⟨p, ins, hreached, hins, ?_⟩⟩
    exact (Opcode.flow_of_mem_all _ hwf.opcode_mem).2.1 hflow
  have hempty : ¬ m.body.isEmpty = true := by simpa using hne
  refine ⟨⟨m, ⟨0, order.map fun p => (p, givenHeads (successors m) p)⟩⟩, ?_, fun p => ?_⟩
  · rw [ofMethod, if_neg hempty, explore_eq_ofOrder horder hlength,
      Exploration.ofOrder_of_forall_ok hok]
    rfl
  · rw [Digraph.nodes, Adjacency.nodes_map]
    exact hmem p

end Loaded

/-- **The graph of a method shows what can be reached in its body.** For a
method of a loaded assembly the exploration ends, however much room it is
given beyond one place for each instruction. It fails for the lack of a
body exactly if there is none, and for an instruction that is not
supported exactly if a pointer to a method can be reached from the entry.
Else the nodes of the graph are the positions that can be reached, all of
them in the body, and those without heads are the returns, the throws and
the last instruction of the body if it does not branch. -/
theorem ofMethod_eq_by_reachability {d : ListingDocument} {a : Assembly}
    (ha : Assembly.ofDocument d = .ok a) (hm : m ∈ a.methods) :
    (m.body ≠ [] → ∀ room, m.body.length ≤ room →
      explore (successors m) room [0] [] = explore (successors m) m.body.length [0] [] ∧
        ∀ found p, explore (successors m) room [0] [] ≠ .full found p) ∧
    (ofMethod m = .error (.emptyBody m.fullName) ↔ m.body = []) ∧
    ((∃ text flow, ofMethod m = .error (.unsupported m.fullName text flow)) ↔
      m.body ≠ [] ∧ m.body.ReachesPointerTransfer) ∧
    (m.body ≠ [] → ¬ m.body.ReachesPointerTransfer →
      ∃ c, ofMethod m = .ok c ∧ c.graph.root = 0 ∧ c.graph.nodes.Nodup ∧
        (∀ p, p ∈ c.graph.nodes ↔ m.body.Reached p) ∧
        ∀ p ∈ c.graph.nodes, ∃ ins, m.body[p]? = some ins ∧
          (c.graph.heads p = .ok [] ↔ ins.opcode.flow = .ret ∨ ins.opcode.flow = .throw ∨
            (p + 1 = m.body.length ∧ ins.opcode.flow.branches = false))) := by
  have hbody := Assembly.wellFormed_of_ofDocument ha hm
  have hnone : m.body = [] → ofMethod m = .error (.emptyBody m.fullName) := fun hnil => by
    rw [ofMethod, hnil]
    rfl
  refine ⟨fun hne room hroom => explore_successors_eq hbody hne hroom, ⟨fun h => ?_, hnone⟩,
    ⟨?_, ?_⟩, fun hne hpointer => ?_⟩
  · by_contra hne
    by_cases hpointer : m.body.ReachesPointerTransfer
    · obtain ⟨p, ins, -, -, -, herror⟩ := ofMethod_eq_error hbody hne hpointer
      rw [herror] at h
      cases h
    · obtain ⟨c, hc, -⟩ := exists_ofMethod hbody hne hpointer
      rw [hc] at h
      cases h
  · rintro ⟨text, flow, h⟩
    have hne : m.body ≠ [] := fun hnil => by
      rw [hnone hnil] at h
      cases h
    refine ⟨hne, ?_⟩
    by_contra hpointer
    obtain ⟨c, hc, -⟩ := exists_ofMethod hbody hne hpointer
    rw [hc] at h
    cases h
  · rintro ⟨hne, hpointer⟩
    obtain ⟨p, ins, -, -, -, herror⟩ := ofMethod_eq_error hbody hne hpointer
    exact ⟨_, _, herror⟩
  · obtain ⟨c, hc, hnodes⟩ := exists_ofMethod hbody hne hpointer
    refine ⟨c, hc, (complete_of_ofMethod hbody hc).2.1, (closed_of_ofMethod hbody hc).nodup, hnodes,
      fun p hp => ?_⟩
    obtain ⟨ins, hins⟩ := exists_instruction_of_reached hbody hne ((hnodes p).1 hp)
    have hheads := successors_eq_headsOf hbody hc hp
    have hflow : ins.opcode.flow ≠ .unknown := fun hflow => by
      rw [successors_eq_error hins hflow] at hheads
      cases hheads
    refine ⟨ins, hins, ?_⟩
    rw [Digraph.heads_eq_ok hp,
      ← successors_eq_nil_iff hins (hbody ins (List.mem_of_getElem? hins)) hflow, hheads]
    simp only [Except.ok.injEq]

/-- A pointer to a method behind a branch that is always taken, in a loop
that is left at the end of the body. -/
def skipListing : ListingDocument :=
  Assembly.testDocument 0 [("void T::M()", "br IL_0002\ncalli X\nbrtrue IL_0000\nnop")]

/-- The pointer is not in the way of a graph, and not in it. -/
theorem ofMethod_eq_by_reachability_skipListing :
    ∃ a m c, Assembly.ofDocument skipListing = .ok a ∧ m ∈ a.methods ∧ m.body.length = 4 ∧
      m.body[1]?.any (·.opcode.isPointerTransfer) = true ∧ ofMethod m = .ok c ∧
      (∀ p, p ∈ c.graph.nodes ↔ p = 0 ∨ p = 2 ∨ p = 3) ∧ c.graph.heads 3 = .ok [] := by
  obtain ⟨a, m, ha, hm, h⟩ := Assembly.exists_method_of_any skipListing
    (fun m => m.body.length == 4 && m.body[1]?.any (·.opcode.isPointerTransfer) &&
      m.body[3]?.any (·.opcode.flow == .next) && (successors m 0).toOption == some [2] &&
      (successors m 2).toOption == some [3, 0] && (successors m 3).toOption == some [])
    (by decide +kernel)
  simp only [Bool.and_eq_true, beq_iff_eq, toOption_eq_some] at h
  obtain ⟨⟨⟨⟨⟨hlength, hpointer⟩, hlast⟩, hzero⟩, htwo⟩, hthree⟩ := h
  have hbody := Assembly.wellFormed_of_ofDocument ha hm
  have hne : m.body ≠ [] := fun hnil => by rw [hnil] at hlength; cases hlength
  have hreached : ∀ p, m.body.Reached p ↔ p = 0 ∨ p = 2 ∨ p = 3 := by
    have hskip : m.body.Step 0 2 := (step_iff_leads hbody).2 ⟨_, hzero, List.mem_singleton_self 2⟩
    have hleave : m.body.Step 2 3 := (step_iff_leads hbody).2 ⟨_, htwo, List.mem_cons_self⟩
    intro p
    constructor
    · intro hp
      induction hp with
      | refl => exact Or.inl rfl
      | tail _ hstep ih =>
        obtain ⟨heads, hheads, hq⟩ := (step_iff_leads hbody).1 hstep
        rcases ih with rfl | rfl | rfl
        · obtain rfl := Except.ok.inj (hzero.symm.trans hheads)
          exact Or.inr (Or.inl (List.mem_singleton.1 hq))
        · obtain rfl := Except.ok.inj (htwo.symm.trans hheads)
          rcases List.mem_cons.1 hq with rfl | hq
          · exact Or.inr (Or.inr rfl)
          · exact Or.inl (List.mem_singleton.1 hq)
        · obtain rfl := Except.ok.inj (hthree.symm.trans hheads)
          exact absurd hq List.not_mem_nil
    · rintro (rfl | rfl | rfl)
      · exact .refl
      · exact .single hskip
      · exact (ReflTransGen.single hskip).tail hleave
  have hsafe : ¬ m.body.ReachesPointerTransfer := by
    rintro ⟨p, ins, hp, hins, hname⟩
    have hwf := hbody ins (List.mem_of_getElem? hins)
    have herror := successors_eq_error hins ((Opcode.flow_of_mem_all _ hwf.opcode_mem).2.2 hname)
    rcases (hreached p).1 hp with rfl | rfl | rfl
    · rw [hzero] at herror
      cases herror
    · rw [htwo] at herror
      cases herror
    · rw [hthree] at herror
      cases herror
  obtain ⟨c, hc, -, -, hnodes, hends⟩ := (ofMethod_eq_by_reachability ha hm).2.2.2 hne hsafe
  have hnode : 3 ∈ c.graph.nodes := (hnodes 3).2 ((hreached 3).2 (Or.inr (Or.inr rfl)))
  obtain ⟨ins, hins, hend⟩ := hends 3 hnode
  have hflow : ins.opcode.flow = .next := by
    rw [hins] at hlast
    exact eq_of_beq hlast
  refine ⟨a, m, c, ha, hm, hlength, hpointer, hc, fun p => (hnodes p).trans (hreached p), ?_⟩
  exact hend.2 (Or.inr (Or.inr ⟨hlength.symm, by rw [hflow]; rfl⟩))

end ControlFlow

end SmellCheck
