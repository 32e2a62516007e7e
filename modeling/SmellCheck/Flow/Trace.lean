import SmellCheck.Flow.Provenance
import SmellCheck.Text.Columns
/-!
# Traces

The text of the paths of a method: for each path the calls on it, and for
each call where its arguments came from.
-/

namespace SmellCheck.ValueTracker

/-- The method whose paths are tracked. -/
def method (t : ValueTracker) : Method :=
  t.control.method

/-- Where an argument came from, nearest first. -/
def originText (t : ValueTracker) (vg : ValueGraph) (id : ValueId) : String :=
  " <- ".intercalate ((vg.provenance id).map (vg.valueText t.method))

/-- A call and its arguments. -/
def callLines (t : ValueTracker) (vg : ValueGraph) (position : Nat) : List String :=
  ("  " ++ t.method.instructionText position) ::
    (vg.consumedAt position).zipIdx.map fun (id, index) =>
      "    arg " ++ Nat.repr index ++ ": " ++ Text.block (t.originText vg id)

/-- The positions of the calls on a path, each once. -/
def callsOn (t : ValueTracker) (path : List Nat) : List Nat :=
  path.eraseDups.filter fun position => t.method.body[position]?.any (·.method?.isSome)

/-- The heading of a path. -/
def pathHeading (t : ValueTracker) (number : Nat) (path : List Nat) : String :=
  "path " ++ Nat.repr number ++ "/" ++ Nat.repr t.graphs.length ++ ": "
    ++ " -> ".intercalate (path.map t.method.body.label)
    ++ if containsLoop path then " (loop)" else ""

/-- A path and its calls. -/
def pathLines (t : ValueTracker) (number : Nat) (vg : ValueGraph) : List String :=
  "" :: Text.block (t.pathHeading number vg.path) ::
    (t.callsOn vg.path).flatMap (t.callLines vg)

/-- The text of all paths. -/
def text (t : ValueTracker) : String :=
  let lines := Text.block t.method.signature.text ::
    t.graphs.zipIdx.flatMap fun (vg, index) => t.pathLines (index + 1) vg
  String.join (lines.map (· ++ "\n"))

end SmellCheck.ValueTracker
