import SmellCheck.Flow.Replay
/-!
# Provenance

The value graph of a path leads from each value to its parents. Its root
is the end of the path, whose parents are the values that nothing was
made from. A value tracker holds the value graphs of all paths of a
method and answers which values an instruction consumed and what a value
was made from.
-/

namespace SmellCheck

/-- The provenance of the values on one path. -/
structure ValueGraph where
  path : List Nat
  /-- The values, number one first. -/
  values : List Value
  /-- Leads from the numbers of values to those of their parents. -/
  graph : Digraph ValueId
  deriving DecidableEq

namespace ValueGraph

/-- The number of the root. -/
def rootId : ValueId := 0

/-- The values that no value was made from, in order of creation. -/
def terminal (values : List Value) : List ValueId :=
  ((List.range values.length).map (· + 1)).filter fun id =>
    !values.any fun v => v.parents.contains id

/-- The parents of a value or of the root. -/
def parentsIn (values : List Value) : ValueId → List ValueId
  | 0 => terminal values
  | k + 1 =>
    match values[k]? with
    | some v => v.parents
    | none => []

/-- The value graph of a replayed path. -/
def ofReplay (path : List Nat) (r : Replay) : ValueGraph where
  path := path
  values := r.values
  graph := .ofHeads (parentsIn r.values) (r.values.length + 1) rootId

/-- The value with the given number. -/
def value? (vg : ValueGraph) (id : Int) : Option Value :=
  if id ≤ 0 then none else vg.values[(id - 1).toNat]?

/-- The number names a value or the root. -/
def hasId (vg : ValueGraph) (id : Int) : Bool :=
  id == 0 || (vg.value? id).isSome

/-- The values with their numbers. -/
def numbered (vg : ValueGraph) : List (ValueId × Value) :=
  vg.values.zipIdx.map fun (v, k) => (k + 1, v)

/-- The values that the instruction at a position took as inputs, the
first argument first and the receiver left out. -/
def consumedAt (vg : ValueGraph) (position : Nat) : List ValueId :=
  if vg.path.contains position then
    (vg.numbered.filter fun (_, v) => v.consumer == some position && !v.receiver).map (·.1)
  else []

/-- A value and everything that it was made from, depth first. -/
def provenance (vg : ValueGraph) (id : ValueId) : List ValueId :=
  (vg.graph.walkFrom id).filter (· != rootId)

/-- The values without parents among those that a value was made from. -/
def sources (vg : ValueGraph) (id : ValueId) : List ValueId :=
  (vg.provenance id).filter fun k => (vg.value? k).any (·.isSource)

/-- The written form of the value with the given number in a method. -/
def valueText (m : Method) (vg : ValueGraph) (id : ValueId) : String :=
  "v" ++ Nat.repr id ++ " <" ++
    (match vg.value? id with
     | some v => m.instructionText v.producer
     | none => "root") ++ ">"

end ValueGraph

/-- The value graphs of all paths of a method, in the order of the
paths. -/
structure ValueTracker where
  control : ControlFlow
  graphs : List ValueGraph
  deriving DecidableEq

namespace ValueTracker

/-- Replays paths, of which the first has the given number. -/
def replayPaths (m : Method) (number : Nat) :
    List (List Nat) → Except FlowError (List ValueGraph)
  | [] => .ok []
  | path :: paths =>
    match Replay.run m path with
    | .error fault => .error (.replay m.fullName number fault)
    | .ok r => (replayPaths m (number + 1) paths).map (.ofReplay path r :: ·)

/-- Replays every path of a control-flow graph. -/
def ofControl (c : ControlFlow) : Except FlowError ValueTracker :=
  (replayPaths c.method 0 c.paths).map (⟨c, ·⟩)

/-- Replays every path of a control-flow graph that may not be given. -/
def ofControl? : Option ControlFlow → Except FlowError ValueTracker
  | some c => ofControl c
  | none => .error (.absent .trackedGraph)

/-- Replays every path of a method. -/
def ofMethod (m : Method) : Except FlowError ValueTracker :=
  (ControlFlow.ofMethod m).bind ofControl

/-- Replays every path of a method that may not be given. -/
def ofMethod? : Option Method → Except FlowError ValueTracker
  | some m => ofMethod m
  | none => .error (.absent .trackedMethod)

/-- The values that an instruction took as inputs on the path of a value
graph, where either may not be given. -/
def consumed? : Option ValueGraph → Option Nat → Except FlowError (List ValueId)
  | none, _ => .error (.absent .queriedGraph)
  | some _, none => .error (.absent .queriedInstruction)
  | some vg, some position => .ok (vg.consumedAt position)

/-- A value of one of the tracked paths. -/
structure Ref where
  path : Nat
  id : ValueId
  deriving DecidableEq

/-- What a value was made from; `none` if the tracker has no such path. -/
def provenance? (t : ValueTracker) (v : Ref) : Option (List ValueId) :=
  t.graphs[v.path]?.map (·.provenance v.id)

/-- The sources of a value; `none` if the tracker has no such path. -/
def sources? (t : ValueTracker) (v : Ref) : Option (List ValueId) :=
  t.graphs[v.path]?.map (·.sources v.id)

end ValueTracker

end SmellCheck
