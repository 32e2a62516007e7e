import SmellCheck.Bytecode.Opcode
import SmellCheck.Bytecode.Signature
import SmellCheck.Real64.Shortest
/-!
# Instructions and bodies

A body is a list of instructions, and an instruction is addressed by its
position in the body: the next one is at the next position, and branches
name the positions that they lead to. Every instruction has an offset,
from which its label is written.
-/

namespace SmellCheck

/-- A place in a source file. -/
structure SourcePoint where
  file : String
  line : Int
  deriving DecidableEq

/-- The written form of a source place. -/
def SourcePoint.text (p : SourcePoint) : String :=
  p.file ++ ":" ++ Text.decimal p.line

/-- What stands behind the mnemonic. -/
inductive Operand where
  | nothing
  /-- The position that a branch leads to. -/
  | target (position : Nat)
  /-- The positions that a switch leads to. -/
  | table (positions : List Nat)
  | method (m : Signature)
  | slot (index : Nat)
  | int (value : Int)
  | real (value : Real64)
  | string (bytes : Bytes)
  /-- The name of a field or a type. -/
  | token (name : String)
  deriving DecidableEq

/-- One instruction of a body. -/
structure Instruction where
  offset : Int
  opcode : Opcode
  operand : Operand
  /-- The source place that was given right before the instruction. -/
  point : Option SourcePoint
  deriving DecidableEq

/-- The instructions of a method, by position. -/
abbrev Body := List Instruction

/-- The label of an offset: at least four hexadecimal places, of which
the sign of a negative offset takes one. -/
def labelOf (offset : Int) : String :=
  String.ofList ("IL_".toList ++ Text.hexInt 4 offset)

/-- The label of the instruction at a position. -/
def Body.label (body : Body) (position : Nat) : String :=
  match body[position]? with
  | some ins => labelOf ins.offset
  | none => ""

/-- The position behind the given one, if the body goes on. -/
def Body.next? (body : Body) (position : Nat) : Option Nat :=
  if position + 1 < body.length then some (position + 1) else none

/-- The position in front of the given one, if the body does not begin
there. -/
def Body.previous? (body : Body) : (position : Nat) → Option Nat
  | 0 => none
  | position + 1 => if position + 1 < body.length then some position else none

/-- The written form of an operand, with the label of each position. -/
def Operand.text? (label : Nat → String) : Operand → Option String
  | nothing => none
  | target position => some (label position)
  | table positions => some ("(" ++ ", ".intercalate (positions.map label) ++ ")")
  | method m => some m.text
  | slot index => some (Nat.repr index)
  | int value => some (Text.decimal value)
  | real value => some value.text
  | string bytes => some (String.ofList (Text.quoteBytes bytes))
  | token name => some name

namespace Instruction

/-- The label of an instruction. -/
def label (ins : Instruction) : String :=
  labelOf ins.offset

/-- The written form of an instruction of the body. -/
def text (body : Body) (ins : Instruction) : String :=
  ins.label ++ ": " ++ ins.opcode.name ++
    match ins.operand.text? body.label with
    | some operand => " " ++ operand
    | none => ""

/-- The slot that the instruction touches. -/
def slotIndex? (ins : Instruction) : Option Nat :=
  if ins.opcode.slot.isNone then none
  else
    match ins.opcode.implicitSlot, ins.operand with
    | some i, _ => some i
    | none, .slot i => some i
    | none, _ => none

/-- The method behind the mnemonic. -/
def method? (ins : Instruction) : Option Signature :=
  match ins.operand with
  | .method m => some m
  | _ => none

/-- The positions that the instruction names as targets. -/
def targets (ins : Instruction) : List Nat :=
  match ins.operand with
  | .target position => [position]
  | .table positions => positions
  | _ => []

/-- The literal that a constant load pushes. -/
def constant? (ins : Instruction) : Option String :=
  if ins.opcode.isConstantLoad then
    match ins.opcode.shortConstant, ins.operand with
    | some i, _ => some (Text.decimal i)
    | none, .int value => some (Text.decimal value)
    | none, .real value => some value.text
    | none, .string bytes => some (String.ofList (Text.quoteBytes bytes))
    | none, .token name => some (Text.quoted name)
    | none, _ => some "null"
  else none

end Instruction

end SmellCheck
