import SmellCheck.Flow.Control
/-!
# Replaying a path

A path is replayed on an operand stack that starts and has to end empty.
Every value that an instruction pushes gets a number, from one on, and is
recorded with the instruction that produced it, the instruction that
consumed it, and its parents: the values that it was made from. A slot
holds the value that was last written to it, by a store or, behind a
call, through a reference argument.

Before its first step a replay makes room for the slots of the method.
Where these are more than an array can have, there is no replay.
-/

namespace SmellCheck

/-- The number of a value on a path. Zero is the root, which stands for
the end of the path. -/
abbrev ValueId := Nat

/-- A value on a path. -/
structure Value where
  /-- The position of the instruction that pushed it. -/
  producer : Nat
  /-- The position of the instruction that last took it as an input. -/
  consumer : Option Nat := none
  /-- The values that it was made from, the deepest operand first. -/
  parents : List ValueId
  /-- It was taken as the receiver of a call. -/
  receiver : Bool := false
  deriving DecidableEq

/-- A value has no parents. -/
def Value.isSource (v : Value) : Bool :=
  v.parents.isEmpty

/-- A value written to a slot. -/
structure SlotWrite where
  space : SlotSpace
  index : Nat
  value : ValueId
  deriving DecidableEq

/-- The state of a replay. -/
structure Replay where
  /-- The values created so far, number one first. -/
  values : List Value := []
  /-- The operand stack, its top first. -/
  stack : List ValueId := []
  /-- The writes to slots, the last one first. -/
  writes : List SlotWrite := []
  deriving DecidableEq

namespace Replay

/-! ## The parts of a step -/

/-- The value with the given number. -/
def value? (r : Replay) (id : ValueId) : Option Value :=
  match id with
  | 0 => none
  | k + 1 => r.values[k]?

/-- The value last written to a slot. -/
def slotValue? (r : Replay) (space : SlotSpace) (index : Nat) : Option ValueId :=
  (r.writes.find? fun w => w.space == space && w.index == index).map (·.value)

/-- A value that was not there before, and its number. -/
def create (r : Replay) (producer : Nat) (parents : List ValueId) : ValueId × Replay :=
  (r.values.length + 1, { r with values := r.values ++ [{ producer, parents }] })

/-- Puts a new value on the stack. -/
def push (r : Replay) (producer : Nat) (parents : List ValueId) : Replay :=
  let (id, r) := r.create producer parents
  { r with stack := id :: r.stack }

/-- Records that the instruction at the position took a value. -/
def consume (r : Replay) (position : Nat) (asReceiver : Bool) (id : ValueId) : Replay :=
  match id with
  | 0 => r
  | k + 1 =>
    { r with
      values := r.values.modify k fun v =>
        { v with consumer := some position, receiver := v.receiver || asReceiver } }

/-- Writes a value to a slot. -/
def write (r : Replay) (space : SlotSpace) (index : Nat) (id : ValueId) : Replay :=
  { r with writes := ⟨space, index, id⟩ :: r.writes }

/-- The call passes a receiver on the stack. -/
def passesReceiver (op : Opcode) (callee : Signature) : Bool :=
  callee.hasThis && !op.isNewObject

/-- How many operands an instruction of the method takes. -/
def popCount (m : Method) (ins : Instruction) : Nat :=
  if ins.opcode.isRet then if m.signature.returnsVoid then 0 else 1
  else
    match ins.opcode.pop, ins.method? with
    | .fixed n, _ => n
    | .varies, some callee =>
      callee.params.length + (if passesReceiver ins.opcode callee then 1 else 0)
    | .varies, none => 0

/-- How many operands an instruction gives. -/
def pushCount (ins : Instruction) : Nat :=
  match ins.opcode.push, ins.method? with
  | .fixed n, _ => n
  | .varies, some callee => if ins.opcode.isNewObject || !callee.returnsVoid then 1 else 0
  | .varies, none => 0

/-- An operand in its role at the instruction that takes it. -/
inductive Role where
  | plain
  | receiver
  /-- Handed on to be written by the callee, and not taken as an input. -/
  | outArgument
  deriving DecidableEq

/-- The roles of the operands of a call, the deepest first. -/
def callRoles (op : Opcode) (callee : Signature) : List Role :=
  (if passesReceiver op callee then [.receiver] else [])
    ++ callee.params.map fun p => if p.kind = .out then .outArgument else .plain

/-- The operands with their roles. -/
def withRoles (ins : Instruction) (inputs : List ValueId) : List (ValueId × Role) :=
  match ins.method? with
  | some callee => inputs.zip (callRoles ins.opcode callee)
  | none => inputs.map (·, .plain)

/-- The operands that are taken as inputs. -/
def consumed (operands : List (ValueId × Role)) : List ValueId :=
  (operands.filter (·.2 != .outArgument)).map (·.1)

/-- Records the operands that are taken as inputs. -/
def consumeAll (r : Replay) (position : Nat) (operands : List (ValueId × Role)) : Replay :=
  (operands.filter (·.2 != .outArgument)).foldl
    (fun r (id, role) => r.consume position (role == .receiver) id) r

/-- The slot that an instruction touches, if the method has it. -/
def slotOf (m : Method) (access : SlotAccess) (ins : Instruction) : Except StepFault Nat :=
  match ins.slotIndex? with
  | none => .error (.badSlot 0 (m.slots access.space))
  | some index =>
    if index < m.slots access.space then .ok index
    else .error (.badSlot index (m.slots access.space))

/-- Stores the first operand into the slot of a store. -/
def store (m : Method) (ins : Instruction) (inputs : List ValueId) (r : Replay) :
    Except StepFault Replay :=
  match ins.opcode.slot, inputs with
  | some ⟨.store, space⟩, id :: _ => do
    let index ← slotOf m ⟨.store, space⟩ ins
    return r.write space index id
  | _, _ => .ok r

/-- The parents of a value that an instruction pushes: what its slot
holds for a load, and else the inputs. -/
def parentsOf (m : Method) (ins : Instruction) (inputs : List ValueId) (r : Replay) :
    Except StepFault (List ValueId) :=
  match ins.opcode.slot with
  | some ⟨.load, space⟩ => do
    let index ← slotOf m ⟨.load, space⟩ ins
    return (r.slotValue? space index).toList
  | _ => .ok inputs

/-- Pushes `count` values. -/
def pushAll (m : Method) (position : Nat) (ins : Instruction) (inputs : List ValueId) :
    (count : Nat) → Replay → Except StepFault Replay
  | 0, r => .ok r
  | count + 1, r => do
    let parents ← parentsOf m ins inputs r
    pushAll m position ins inputs count (r.push position parents)

/-- The slot whose value or address a value is. -/
def addressed? (m : Method) (r : Replay) (id : ValueId) : Option (SlotSpace × Nat) := do
  let v ← r.value? id
  let ins ← m.body[v.producer]?
  let access ← ins.opcode.slot.filter (·.use == .load)
  let index ← ins.slotIndex?
  if index < m.slots access.space then some (access.space, index) else none

/-- The callee writes through one argument: a new value, made from the
inputs of the call, takes the place of what the argument's slot held. -/
def writeBack (m : Method) (position : Nat) (inputs : List ValueId) (r : Replay)
    (argument : ValueId) : Replay :=
  let (id, r) := r.create position inputs
  match addressed? m r argument with
  | some (space, index) => r.write space index id
  | none => r

/-- The arguments through which the callee writes, in order. -/
def writtenArguments (op : Opcode) (callee : Signature) (inputs : List ValueId) : List ValueId :=
  let arguments := if passesReceiver op callee then inputs.drop 1 else inputs
  ((arguments.zip callee.params).filter (·.2.isByRef)).map (·.1)

/-- The callee writes through its reference arguments. -/
def writeBackAll (m : Method) (position : Nat) (ins : Instruction)
    (operands inputs : List ValueId) (r : Replay) : Replay :=
  match ins.method? with
  | some callee =>
    (writtenArguments ins.opcode callee operands).foldl (writeBack m position inputs) r
  | none => r

/-! ## Steps and runs -/

/-- Replays one instruction. -/
def step (m : Method) (position : Nat) (ins : Instruction) (r : Replay) :
    Except StepFault Replay := do
  if ins.opcode.flow == .call && ins.method?.isNone then throw .noCallee
  let pops := popCount m ins
  if r.stack.length < pops then throw (.underflow pops r.stack.length)
  let operands := (r.stack.take pops).reverse
  let roles := withRoles ins operands
  let inputs := consumed roles
  let r := { r with stack := r.stack.drop pops }.consumeAll position roles
  let r ← store m ins operands r
  let r ← pushAll m position ins inputs (pushCount ins) r
  return writeBackAll m position ins operands inputs r

/-- Replays the instructions at the positions. -/
def steps (m : Method) (r : Replay) : List Nat → Except ReplayFault Replay
  | [] => .ok r
  | position :: path =>
    match m.body[position]? with
    | none => steps m r path
    | some ins =>
      match step m position ins r with
      | .ok r => steps m r path
      | .error fault => .error (.step (ins.text m.body) fault)

/-- The most slots that an array can have: it takes up to 2^48 bytes, and
a slot four of them. -/
def maxSlots : Nat := 0x400000000000

/-- There are arrays for the slots of the method. -/
def hasRoom (m : Method) : Bool :=
  m.slots .locals ≤ maxSlots && m.slots .args ≤ maxSlots

/-- Replays a path from an empty stack to an empty stack. -/
def run (m : Method) (path : List Nat) : Except ReplayFault Replay := do
  if !hasRoom m then throw .noRoom
  let r ← steps m {} path
  if r.stack.isEmpty then return r else throw (.leftOver r.stack.length)

end Replay

end SmellCheck
