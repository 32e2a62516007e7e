import SmellCheck.Flow.Provenance
import SmellCheck.Testing.Framework
/-!
# Test cases

A test case is a method prepared for the rules: its control flow, and the
graph of the assembly's methods that it reaches by calls. A method of
this graph is asserting if it calls an assertion, itself or through the
methods that it calls.
-/

namespace SmellCheck

/-- The tests among the methods of an assembly whose full name is
accepted, in the order of the assembly. -/
def Assembly.tests (a : Assembly) (r : Registry) (accepted : String → Bool) : List Method :=
  a.methods.filter fun m => r.isTest m && accepted m.fullName

/-- The methods of the assembly that a method calls, each once, in the
order of its body. -/
def Assembly.callees (a : Assembly) (m : Method) : List Method :=
  (m.body.filterMap fun ins => ins.method?.bind a.resolve?).eraseDups

/-- The methods of the assembly that are reached by calls from a method
of it. -/
def Assembly.callGraph (a : Assembly) (m : Method) : Digraph Method :=
  .ofHeads a.callees (a.methods.length + 1) m

/-- The body of the method calls an assertion. -/
def Registry.callsAssertion (r : Registry) (m : Method) : Bool :=
  m.body.any fun ins => ins.method?.any r.isAssertion

/-- A method of an assembly with its control flow. -/
structure TestCase where
  assembly : Assembly
  registry : Registry
  control : ControlFlow
  deriving DecidableEq

namespace TestCase

/-- Prepares a method of an assembly. -/
def ofMethod (a : Assembly) (r : Registry) (m : Method) : Except FlowError TestCase :=
  (ControlFlow.ofMethod m).map (⟨a, r, ·⟩)

/-- The method of the test case. -/
def method (tc : TestCase) : Method :=
  tc.control.method

/-- The instructions of the method. -/
def body (tc : TestCase) : Body :=
  tc.method.body

/-- The framework that the method is a test of. -/
def framework? (tc : TestCase) : Option Framework :=
  tc.registry.frameworkOf? tc.method

/-- The methods that the test reaches by calls. -/
def calls (tc : TestCase) : Digraph Method :=
  tc.assembly.callGraph tc.method

/-- The method calls an assertion, itself or through others. -/
def isAsserting (tc : TestCase) (m : Method) : Bool :=
  (tc.calls.walkFrom m).any tc.registry.callsAssertion

/-- The asserting methods that the test reaches, in the order of
discovery. -/
def asserting (tc : TestCase) : List Method :=
  tc.calls.nodes.filter tc.isAsserting

/-- The instruction calls an assertion or an asserting method. -/
def isAssertionCall (tc : TestCase) (ins : Instruction) : Bool :=
  ins.method?.any fun s =>
    tc.registry.isAssertion s || (tc.assembly.resolve? s).any tc.isAsserting

/-- The instruction calls an assertion that takes the expected value
first. -/
def expectsFirst (tc : TestCase) (ins : Instruction) : Bool :=
  ins.method?.any tc.registry.expectsFirst

/-- The positions of instructions that have a property, in body order. -/
def positionsOf (tc : TestCase) (p : Instruction → Bool) : List Nat :=
  (List.range tc.body.length).filter fun position => tc.body[position]?.any p

/-- The positions of the assertion calls, reachable or not. -/
def assertionSites (tc : TestCase) : List Nat :=
  tc.positionsOf tc.isAssertionCall

/-- The paths from the entry to the returns. -/
def paths (tc : TestCase) : List (List Nat) :=
  tc.control.paths

/-- The values on each path. -/
def tracker (tc : TestCase) : Except FlowError ValueTracker :=
  ValueTracker.ofControl tc.control

end TestCase

/-- The place of an instruction: the last source place that was given up
to it, or its label if there is none. -/
def Body.place (body : Body) (position : Nat) : String :=
  match ((body.take (position + 1)).filterMap (·.point)).getLast? with
  | some point => point.text
  | none => body.label position

/-- The first source place in a method. -/
def Method.place? (m : Method) : Option SourcePoint :=
  m.body.findSome? (·.point)

end SmellCheck
