import SmellCheck.Bytecode.Method
import SmellCheck.Digraph.Paths
/-!
# Control flow

The control-flow graph of a method has the positions of its body as
nodes and starts at the first one. An instruction leads to the next one,
to the targets that it names, to both, or nowhere. The instruction paths
of a method are the paths of this graph from its root to each return.
-/

namespace SmellCheck

/-- The argument of a question that was not given. -/
inductive Absent where
  | graphMethod
  | trackedMethod
  | trackedGraph
  | queriedGraph
  | queriedInstruction
  deriving DecidableEq

/-- The wording of an argument that was not given. -/
def Absent.text : Absent → String
  | graphMethod => "instruction graph: nil method"
  | trackedMethod => "value tracker: nil method"
  | trackedGraph => "value tracker: nil instruction graph"
  | queriedGraph => "consumed values: nil value graph"
  | queriedInstruction => "consumed values: nil instruction"

/-- Why an instruction cannot be replayed on the operand stack. -/
inductive StepFault where
  | noCallee
  | underflow (pops height : Nat)
  | badSlot (index slots : Nat)
  deriving DecidableEq

/-- Why a path cannot be replayed on the operand stack. -/
inductive ReplayFault where
  /-- There is no array for the slots of the method. -/
  | noRoom
  | step (instruction : String) (fault : StepFault)
  | leftOver (height : Nat)
  deriving DecidableEq

/-- Why a method has no control flow or no value flow. -/
inductive FlowError where
  | absent (what : Absent)
  | emptyBody (method : String)
  | unsupported (method instruction : String) (flow : FlowKind)
  | replay (method : String) (path : Nat) (fault : ReplayFault)
  deriving DecidableEq

/-- The wording that ends an error about an argument. -/
def invalidArgumentText : String := "invalid argument"

/-- The wording that ends an error about the operand stack. -/
def stackImbalanceText : String := "operand stack imbalance"

/-- The wording of a fault of one instruction. -/
def StepFault.message : StepFault → String
  | noCallee => "call without a method operand: " ++ invalidArgumentText
  | underflow pops height =>
    "pops " ++ Nat.repr pops ++ " with " ++ Nat.repr height ++ " on the stack: "
      ++ stackImbalanceText
  | badSlot index slots =>
    "slot " ++ Nat.repr index ++ " out of range (" ++ Nat.repr slots ++ " slots): "
      ++ invalidArgumentText

/-- The wording of a fault of a path. -/
def ReplayFault.message : ReplayFault → String
  | noRoom => "runtime error: makeslice: len out of range"
  | step instruction fault => instruction ++ ": " ++ fault.message
  | leftOver height =>
    Nat.repr height ++ " value(s) left on the stack at path end: " ++ stackImbalanceText

/-- The wording of a failure. -/
def FlowError.message : FlowError → String
  | absent what => what.text ++ ": " ++ invalidArgumentText
  | emptyBody method =>
    "instruction graph for " ++ method ++ ": empty body: " ++ invalidArgumentText
  | unsupported method instruction flow =>
    "instruction graph for " ++ method ++ ": " ++ instruction ++ " (flow " ++ flow.name
      ++ "): unsupported instruction"
  | replay method path fault =>
    method ++ " path " ++ Nat.repr path ++ ": " ++ fault.message

/-- The failure is none that is reported: it brings the program down. -/
def FlowError.aborts : FlowError → Bool
  | replay _ _ .noRoom => true
  | _ => false

/-- The control-flow graph of a method, over the positions of its body. -/
structure ControlFlow where
  method : Method
  graph : Digraph Nat
  deriving DecidableEq

namespace ControlFlow

/-- Where control goes that does not branch: to the next instruction, if
there is one. -/
def following (body : Body) (position : Nat) : List Nat :=
  (body.next? position).toList

/-- The positions that control may go to from an instruction at the
given position; `none` if that is not known. -/
def successors? (body : Body) (position : Nat) (ins : Instruction) : Option (List Nat) :=
  match ins.opcode.flow with
  | .next | .call | .modifier | .pause => some (following body position)
  | .ret | .throw => some []
  | .branch => some ins.targets
  | .condBranch => some (following body position ++ ins.targets)
  | .unknown => none

/-- The positions that control may go to from a position. -/
def successors (m : Method) (position : Nat) : Except FlowError (List Nat) :=
  match m.body[position]? with
  | none => .ok []
  | some ins =>
    match successors? m.body position ins with
    | some heads => .ok heads
    | none => .error (.unsupported m.fullName (ins.text m.body) ins.opcode.flow)

/-- The control-flow graph of a method. -/
def ofMethod (m : Method) : Except FlowError ControlFlow :=
  if m.body.isEmpty then .error (.emptyBody m.fullName)
  else
    match explore (successors m) m.body.length [0] [] with
    | .failed _ _ e => .error e
    | outcome => .ok ⟨m, .ofExploration 0 outcome⟩

/-- The control-flow graph of a method that may not be given. -/
def ofMethod? : Option Method → Except FlowError ControlFlow
  | some m => ofMethod m
  | none => .error (.absent .graphMethod)

/-- The instruction at the position is a return. -/
def isReturn (m : Method) (position : Nat) : Bool :=
  m.body[position]?.any (·.opcode.flow == .ret)

/-- The reachable returns in the order of discovery. -/
def returns (c : ControlFlow) : List Nat :=
  c.graph.nodes.filter (isReturn c.method)

/-- The paths from the entry to each reachable return. -/
def paths (c : ControlFlow) : List (List Nat) :=
  c.returns.flatMap (c.graph.pathsWithin · c.graph.fullAllowance c.graph.root)

end ControlFlow

/-- The path meets a position twice. -/
def containsLoop : List Nat → Bool
  | [] => false
  | position :: rest => rest.contains position || containsLoop rest

end SmellCheck
