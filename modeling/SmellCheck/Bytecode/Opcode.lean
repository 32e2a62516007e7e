/-!
# Opcodes

An opcode says how its instructions transfer control, how many operands
they take from and put on the operand stack, what is written behind the
mnemonic, and which variable slot they touch. `Opcode.all` is the table
of the opcodes that listings may use.
-/

namespace SmellCheck

/-- How an instruction transfers control. -/
inductive FlowKind where
  | unknown
  | next
  | call
  | ret
  | branch
  | condBranch
  | throw
  | modifier
  | pause
  deriving DecidableEq

/-- The name of a kind of control transfer in reports. -/
def FlowKind.name : FlowKind → String
  | unknown => "unknown"
  | next => "next"
  | call => "call"
  | ret => "return"
  | branch => "branch"
  | condBranch => "cond_branch"
  | throw => "throw"
  | modifier => "meta"
  | pause => "break"

/-- The kinds of control transfer by their codes, from zero on. -/
def FlowKind.all : List FlowKind :=
  [unknown, next, call, ret, branch, condBranch, throw, modifier, pause]

/-- The name of the kind with the given code. -/
def FlowKind.nameOfCode (code : Int) : String :=
  if code < 0 then "invalid"
  else
    match FlowKind.all[code.toNat]? with
    | some kind => kind.name
    | none => "invalid"

/-- A number of stack operands, which may depend on the method called or
left. -/
inductive StackCount where
  | fixed (n : Nat)
  | varies
  deriving DecidableEq

/-- What is written behind the mnemonic. -/
inductive OperandKind where
  | nothing
  | branchTarget
  | switchTable
  | method
  | localSlot
  | argSlot
  | int32
  | int64
  | real
  | string
  | field
  | type
  deriving DecidableEq

/-- The two spaces of variable slots. -/
inductive SlotSpace where
  | locals
  | args
  deriving DecidableEq

/-- How an instruction touches a variable slot. -/
inductive SlotUse where
  | load
  | store
  deriving DecidableEq

/-- Which slot space an instruction touches, and how. -/
structure SlotAccess where
  use : SlotUse
  space : SlotSpace
  deriving DecidableEq

/-- The description of one kind of instruction. -/
structure Opcode where
  name : String
  flow : FlowKind
  pop : StackCount
  push : StackCount
  operand : OperandKind := .nothing
  slot : Option SlotAccess := none
  /-- The slot that short forms such as `ldloc.2` name themselves. -/
  implicitSlot : Option Nat := none
  /-- The instruction pushes a pointer to the slot and not its value. -/
  address : Bool := false
  /-- The constant that short forms such as `ldc.i4.5` push. -/
  shortConstant : Option Int := none
  deriving DecidableEq

namespace Opcode

/-- The instruction constructs an object, so the receiver of the
constructor is not taken from the stack. -/
def isNewObject (op : Opcode) : Bool :=
  op.name == "newobj"

/-- The instruction returns from the method. -/
def isRet (op : Opcode) : Bool :=
  op.name == "ret"

/-- The instruction pushes the value or the address of a slot. -/
def loadsSlot (op : Opcode) : Bool :=
  op.slot.any (·.use == .load)

/-- The instruction stores an operand into a slot. -/
def storesSlot (op : Opcode) : Bool :=
  op.slot.any (·.use == .store)

/-- The instruction pushes a number, a string or null and takes nothing. -/
def isConstantLoad (op : Opcode) : Bool :=
  op.shortConstant.isSome
    || (match op.operand with
        | .int32 | .int64 | .real | .string => op.pop == .fixed 0
        | _ => op.name == "ldnull")

/-! ## The table -/

/-- An opcode that takes `pop` operands, gives `push` and goes on. -/
def simple (name : String) (pop push : Nat) : Opcode :=
  { name, flow := .next, pop := .fixed pop, push := .fixed push }

/-- A simple opcode with something behind its mnemonic. -/
def withOperand (name : String) (pop push : Nat) (operand : OperandKind) : Opcode :=
  { simple name pop push with operand }

/-- A call: what it takes and gives depends on the method. -/
def calling (name : String) : Opcode :=
  { name, flow := .call, pop := .varies, push := .varies, operand := .method }

/-- A branch that takes `pop` operands. -/
def branching (name : String) (flow : FlowKind) (pop : Nat) : Opcode :=
  { name, flow, pop := .fixed pop, push := .fixed 0, operand := .branchTarget }

/-- The long and the short form of a conditional branch. -/
def condBranching (pop : Nat) (name : String) : List Opcode :=
  [branching name .condBranch pop, branching (name ++ ".s") .condBranch pop]

/-- An opcode that does nothing to the stack. -/
def neutral (name : String) (flow : FlowKind) (operand : OperandKind) : Opcode :=
  { name, flow, pop := .fixed 0, push := .fixed 0, operand }

/-- An opcode that loads from or stores to a slot. -/
def slotted (name : String) (access : SlotAccess) (operand : OperandKind) : Opcode :=
  match access.use with
  | .load => { simple name 0 1 with operand, slot := some access }
  | .store => { simple name 1 0 with operand, slot := some access }

/-- The forms of slot access that name slot `i` themselves. -/
def implicitSlots (i : Nat) : List Opcode :=
  [{ slotted ("ldloc." ++ Nat.repr i) ⟨.load, .locals⟩ .nothing with implicitSlot := some i },
   { slotted ("stloc." ++ Nat.repr i) ⟨.store, .locals⟩ .nothing with implicitSlot := some i },
   { slotted ("ldarg." ++ Nat.repr i) ⟨.load, .args⟩ .nothing with implicitSlot := some i }]

/-- The forms of slot access that have the slot behind the mnemonic,
which ends in `ending`. -/
def explicitSlots (ending : String) : List Opcode :=
  [slotted ("ldloc" ++ ending) ⟨.load, .locals⟩ .localSlot,
   slotted ("stloc" ++ ending) ⟨.store, .locals⟩ .localSlot,
   slotted ("ldarg" ++ ending) ⟨.load, .args⟩ .argSlot,
   slotted ("starg" ++ ending) ⟨.store, .args⟩ .argSlot,
   { slotted ("ldloca" ++ ending) ⟨.load, .locals⟩ .localSlot with address := true },
   { slotted ("ldarga" ++ ending) ⟨.load, .args⟩ .argSlot with address := true }]

/-- An opcode that pushes the constant `i`. -/
def shortConst (i : Int) : Opcode :=
  { simple ("ldc.i4." ++ (if i < 0 then "m1" else Nat.repr i.toNat)) 0 1 with
    shortConstant := some i }

/-- Control transfer and calls. -/
def transfers : List Opcode :=
  [simple "nop" 0 0,
   { name := "ret", flow := .ret, pop := .varies, push := .fixed 0 },
   calling "call", calling "callvirt", calling "newobj",
   branching "br" .branch 0, branching "br.s" .branch 0,
   branching "leave" .branch 0, branching "leave.s" .branch 0,
   { branching "switch" .condBranch 1 with operand := .switchTable },
   { simple "throw" 1 0 with flow := .throw },
   { simple "rethrow" 0 0 with flow := .throw },
   { simple "endfinally" 0 0 with flow := .ret },
   { simple "break" 0 0 with flow := .pause },
   neutral "tail." .modifier .nothing,
   neutral "constrained." .modifier .type,
   neutral "volatile." .modifier .nothing,
   neutral "jmp" .unknown .method,
   { name := "calli", flow := .unknown, pop := .varies, push := .varies, operand := .type }]

/-- Conditional branches on one and on two operands. -/
def condBranches : List Opcode :=
  ["brtrue", "brfalse"].flatMap (condBranching 1)
    ++ ["beq", "bne.un", "bge", "bge.un", "bgt", "bgt.un", "ble", "ble.un", "blt",
        "blt.un"].flatMap (condBranching 2)

/-- Constants, stack handling, fields, types and array elements. -/
def loadsAndStores : List Opcode :=
  [simple "dup" 1 2, simple "pop" 1 0, simple "ldnull" 0 1, simple "ldlen" 1 1,
   withOperand "ldstr" 0 1 .string,
   withOperand "ldc.i4" 0 1 .int32, withOperand "ldc.i4.s" 0 1 .int32,
   withOperand "ldc.i8" 0 1 .int64,
   withOperand "ldc.r4" 0 1 .real, withOperand "ldc.r8" 0 1 .real,
   withOperand "ldfld" 1 1 .field, withOperand "ldflda" 1 1 .field,
   withOperand "stfld" 2 0 .field, withOperand "ldsfld" 0 1 .field,
   withOperand "ldsflda" 0 1 .field, withOperand "stsfld" 1 0 .field,
   withOperand "box" 1 1 .type, withOperand "unbox.any" 1 1 .type,
   withOperand "castclass" 1 1 .type, withOperand "isinst" 1 1 .type,
   withOperand "newarr" 1 1 .type, withOperand "ldelem" 2 1 .type,
   withOperand "stelem" 3 0 .type, withOperand "initobj" 1 0 .type,
   withOperand "ldtoken" 0 1 .type]
    ++ ["ldelem.i4", "ldelem.i8", "ldelem.r8", "ldelem.ref"].map (simple · 2 1)
    ++ ["stelem.i4", "stelem.i8", "stelem.r8", "stelem.ref"].map (simple · 3 0)
    ++ [-1, 0, 1, 2, 3, 4, 5, 6, 7, 8].map shortConst

/-- Arithmetic, comparison and conversion. -/
def arithmetic : List Opcode :=
  ["add", "sub", "mul", "div", "div.un", "rem", "rem.un", "and", "or", "xor", "shl", "shr",
   "shr.un", "add.ovf", "sub.ovf", "mul.ovf", "ceq", "cgt", "cgt.un", "clt",
   "clt.un"].map (simple · 2 1)
    ++ ["neg", "not", "conv.i", "conv.i1", "conv.i2", "conv.i4", "conv.i8", "conv.u", "conv.u1",
        "conv.u2", "conv.u4", "conv.u8", "conv.r4", "conv.r8", "conv.r.un"].map (simple · 1 1)

/-- Every opcode that a listing may use. -/
def all : List Opcode :=
  transfers ++ condBranches ++ loadsAndStores ++ arithmetic
    ++ [0, 1, 2, 3].flatMap implicitSlots ++ ["", ".s"].flatMap explicitSlots

/-- The opcode with the given mnemonic. -/
def ofName? (name : String) : Option Opcode :=
  all.find? (·.name == name)

end Opcode

end SmellCheck
