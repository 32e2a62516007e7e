import SmellCheck.Bytecode.Listing
import SmellCheck.Proofs.Outcome
/-!
# What a listing gives

An instruction is in order if its opcode is one of the table, its operand
is of the kind that the opcode asks for, and its targets are positions of
the body. Lines are read into drafts; a draft that was read as its opcode
asks gives an instruction in order when its labels are looked up.
-/

namespace SmellCheck

/-- The operand is of the kind. A switch names at least one target. -/
def OperandKind.admits : OperandKind → Operand → Bool
  | nothing, .nothing => true
  | branchTarget, .target _ => true
  | switchTable, .table positions => !positions.isEmpty
  | method, .method _ => true
  | localSlot, .slot _ | argSlot, .slot _ => true
  | int32, .int _ | int64, .int _ => true
  | real, .real _ => true
  | string, .string _ => true
  | field, .token _ | type, .token _ => true
  | _, _ => false

/-- **An instruction in order**, of a body. -/
structure Instruction.WellFormed (body : Body) (ins : Instruction) : Prop where
  opcode_mem : ins.opcode ∈ Opcode.all
  operand_admitted : ins.opcode.operand.admits ins.operand = true
  targets_lt : ∀ position ∈ ins.targets, position < body.length

/-- A body in order. -/
def Body.WellFormed (body : Body) : Prop :=
  ∀ ins ∈ body, ins.WellFormed body

namespace Instruction

variable {ins : Instruction}

/-- Only branches and switches have targets. -/
theorem targets_eq_nil (h : ins.opcode.operand.admits ins.operand = true)
    (hbranch : ins.opcode.operand ≠ .branchTarget) (hswitch : ins.opcode.operand ≠ .switchTable) :
    ins.targets = [] := by
  rw [targets]
  split
  · rename_i hoperand
    rw [hoperand] at h
    cases hkind : ins.opcode.operand <;> simp_all [OperandKind.admits]
  · rename_i hoperand
    rw [hoperand] at h
    cases hkind : ins.opcode.operand <;> simp_all [OperandKind.admits]
  · rfl

/-- Only opcodes that ask for a method have one. -/
theorem operand_eq_method {callee : Signature}
    (h : ins.opcode.operand.admits ins.operand = true) (hcallee : ins.method? = some callee) :
    ins.opcode.operand = .method := by
  rw [method?] at hcallee
  split at hcallee
  · rename_i hoperand
    rw [hoperand] at h
    cases hkind : ins.opcode.operand <;> simp_all [OperandKind.admits]
  · cases hcallee

/-- And they always have one. -/
theorem exists_method (h : ins.opcode.operand.admits ins.operand = true)
    (hkind : ins.opcode.operand = .method) : ∃ callee, ins.method? = some callee := by
  rw [hkind] at h
  cases hoperand : ins.operand with
  | method callee => exact ⟨callee, by rw [method?, hoperand]⟩
  | _ => rw [hoperand] at h; cases h

end Instruction

/-! ## The table of opcodes -/

namespace Opcode

theorem mem_all_of_ofName? {name : String} {op : Opcode} (h : ofName? name = some op) :
    op ∈ all :=
  List.mem_of_find?_eq_some h

/-- **The rows of the table**: what a method, a call or a slot behind the
mnemonic says about the rest of the row. -/
theorem row_of_mem_all : ∀ op ∈ all,
    (op.operand = .method → op.slot = none ∧ op.isRet = false ∧
      (op.pop = .varies ∧ op.push = .varies ∨ op.pop = .fixed 0 ∧ op.push = .fixed 0)) ∧
    (op.operand = .method → op.flow ≠ .unknown → op.pop = .varies) ∧
    ((op.flow = .call ∧ op.isNewObject = false ↔ op.name = "call" ∨ op.name = "callvirt") ∧
      (op.flow = .call → op.operand = .method)) ∧
    (op.slot.isSome = true →
      op.implicitSlot.isSome = true ∨ op.operand = .localSlot ∨ op.operand = .argSlot) ∧
    (op.slot.any (·.use == .load) = true →
      op.pop = .fixed 0 ∧ op.push = .fixed 1 ∧ op.isRet = false ∧ op.operand ≠ .method) ∧
    (op.slot.any (·.use == .store) = true →
      op.pop = .fixed 1 ∧ op.push = .fixed 0 ∧ op.isRet = false ∧ op.operand ≠ .method) := by
  decide +kernel

/-- What has a method behind its mnemonic touches no slot, and takes what
the method asks for or nothing. -/
theorem of_operand_method {op : Opcode} (h : op ∈ all) (hop : op.operand = .method) :
    op.slot = none ∧ op.isRet = false ∧
      (op.pop = .varies ∧ op.push = .varies ∨ op.pop = .fixed 0 ∧ op.push = .fixed 0) :=
  (row_of_mem_all op h).1 hop

/-- What has a method behind its mnemonic and lets control go on takes
what the method asks for. -/
theorem pop_of_operand_method {op : Opcode} (h : op ∈ all) (hop : op.operand = .method)
    (hflow : op.flow ≠ .unknown) : op.pop = .varies :=
  (row_of_mem_all op h).2.1 hop hflow

/-- What calls for a result are two opcodes, which name a method. -/
theorem of_flow_call {op : Opcode} (h : op ∈ all) :
    (op.flow = .call ∧ op.isNewObject = false ↔ op.name = "call" ∨ op.name = "callvirt") ∧
      (op.flow = .call → op.operand = .method) :=
  (row_of_mem_all op h).2.2.1

/-- What touches a slot knows it or asks for it. -/
theorem of_slot {op : Opcode} (h : op ∈ all) {access : SlotAccess}
    (hop : op.slot = some access) :
    op.implicitSlot.isSome = true ∨ op.operand = .localSlot ∨ op.operand = .argSlot :=
  (row_of_mem_all op h).2.2.2.1 (by rw [hop]; rfl)

/-- A load takes nothing and gives one value. -/
theorem of_slot_load {op : Opcode} (h : op ∈ all) {space : SlotSpace}
    (hop : op.slot = some ⟨.load, space⟩) :
    op.pop = .fixed 0 ∧ op.push = .fixed 1 ∧ op.isRet = false ∧ op.operand ≠ .method :=
  (row_of_mem_all op h).2.2.2.2.1 (by rw [hop]; rfl)

/-- A store takes one value and gives none. -/
theorem of_slot_store {op : Opcode} (h : op ∈ all) {space : SlotSpace}
    (hop : op.slot = some ⟨.store, space⟩) :
    op.pop = .fixed 1 ∧ op.push = .fixed 0 ∧ op.isRet = false ∧ op.operand ≠ .method :=
  (row_of_mem_all op h).2.2.2.2.2 (by rw [hop]; rfl)

end Opcode

namespace Listing

/-! ## Drafts -/

/-- A draft in order: its operand was read as the opcode asks. -/
structure Draft.WellFormed (d : Draft) : Prop where
  opcode_mem : d.opcode ∈ Opcode.all
  operand_read : ∃ cs, readOperandOrNothing d.opcode.operand cs = .ok d.operand

/-! ## Labels -/

/-- A label that is found names one of the drafts. -/
theorem lt_length_of_resolve {drafts : List Draft} {label : List Char} {position : Nat}
    (h : resolve drafts label = .ok position) : position < drafts.length := by
  rw [resolve] at h
  split at h
  · rename_i found hfound
    cases h
    rw [position?] at hfound
    split at hfound
    · exact (List.findIdx?_eq_some_iff_findIdx_eq.1 hfound).1
    · exact (List.findIdx?_eq_some_iff_findIdx_eq.1 hfound).1
  · cases h

/-- The positions of labels that are all found. -/
theorem lt_length_of_mapM_resolve {drafts : List Draft} {labels : List (List Char)}
    {positions : List Nat} (h : labels.mapM (resolve drafts) = .ok positions) :
    positions.length = labels.length ∧ ∀ position ∈ positions, position < drafts.length := by
  refine ⟨(forall₂_of_mapM h).length_eq.symm, fun position hposition => ?_⟩
  obtain ⟨label, -, hlabel⟩ := exists_mem_of_mapM h hposition
  exact lt_length_of_resolve hlabel

/-- What is read behind a mnemonic and has no label to look up. -/
theorem admits_of_ready {kind : OperandKind} {cs : List Char} {operand : Operand}
    (h : readOperandOrNothing kind cs = .ok (.ready operand)) :
    kind.admits operand = true ∧ kind ≠ .branchTarget ∧ kind ≠ .switchTable := by
  rw [readOperandOrNothing] at h
  split at h
  · split at h
    · rename_i hkind
      cases h
      simp [hkind, OperandKind.admits]
    · cases h
  · cases kind with
    | nothing => cases h
    | branchTarget => cases h
    | switchTable =>
      simp only [readOperand] at h
      split at h <;> cases h
    | method | localSlot | argSlot | int32 | int64 | real | string =>
      simp only [readOperand] at h
      split at h
      · cases h
        simp [OperandKind.admits]
      · cases h
    | field | type =>
      cases h
      simp [OperandKind.admits]

/-- A branch has its label, and a switch at least one. -/
theorem kind_of_labels {kind : OperandKind} {cs : List Char} :
    (∀ label, readOperandOrNothing kind cs = .ok (.branch label) → kind = .branchTarget) ∧
    ∀ labels, readOperandOrNothing kind cs = .ok (.switch labels) →
      kind = .switchTable ∧ labels ≠ [] := by
  constructor
  · intro label h
    rw [readOperandOrNothing] at h
    split at h
    · split at h <;> cases h
    · cases kind with
      | branchTarget => rfl
      | nothing | field | type => cases h
      | method | localSlot | argSlot | int32 | int64 | real | string | switchTable =>
        simp only [readOperand] at h
        split at h <;> cases h
  · intro labels h
    rw [readOperandOrNothing] at h
    split at h
    · split at h <;> cases h
    · cases kind with
      | nothing | field | type | branchTarget => cases h
      | method | localSlot | argSlot | int32 | int64 | real | string =>
        simp only [readOperand] at h
        split at h <;> cases h
      | switchTable =>
        simp only [readOperand] at h
        split at h
        · cases h
        · rename_i hne
          cases h
          exact ⟨rfl, fun hnil => hne (by rw [hnil]; rfl)⟩

/-- **A draft in order gives an instruction in order.** Only branches and
switches have labels to look up. -/
theorem wellFormed_of_resolveDraft {drafts : List Draft} {d : Draft} {ins : Instruction}
    {body : Body} (hlen : body.length = drafts.length) (hd : d.WellFormed)
    (h : resolveDraft drafts d = .ok ins) : ins.WellFormed body := by
  rw [resolveDraft] at h
  split at h
  · rename_i operand hoperand
    cases h
    obtain ⟨cs, hread⟩ := hd.operand_read
    cases hdraft : d.operand with
    | ready ready =>
      rw [hdraft] at hread hoperand
      cases hoperand
      obtain ⟨hadmits, hbranch, hswitch⟩ := admits_of_ready hread
      refine ⟨hd.opcode_mem, hadmits, fun position hposition => ?_⟩
      rw [Instruction.targets_eq_nil hadmits hbranch hswitch] at hposition
      exact absurd hposition List.not_mem_nil
    | branch label =>
      rw [hdraft] at hread hoperand
      obtain ⟨position, hposition, rfl⟩ := map_eq_ok.1 hoperand
      refine ⟨hd.opcode_mem, ?_, fun t ht => ?_⟩
      · simp only [kind_of_labels.1 label hread, OperandKind.admits]
      · rw [hlen, List.mem_singleton.1 ht]
        exact lt_length_of_resolve hposition
    | switch labels =>
      rw [hdraft] at hread hoperand
      obtain ⟨positions, hpositions, rfl⟩ := map_eq_ok.1 hoperand
      obtain ⟨hlength, hlt⟩ := lt_length_of_mapM_resolve hpositions
      obtain ⟨hkind, hne⟩ := kind_of_labels.2 labels hread
      refine ⟨hd.opcode_mem, ?_, fun t ht => hlen ▸ hlt t ht⟩
      simp only [hkind, OperandKind.admits, Bool.not_eq_true', List.isEmpty_eq_false_iff]
      rintro rfl
      exact hne (List.length_eq_zero_iff.1 hlength.symm)
  · cases h

end Listing

end SmellCheck
