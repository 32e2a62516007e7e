import SmellCheck.Smell.Rule
import SmellCheck.Testing.TestCase
/-!
# Findings

A finding is a smell at an instruction of a test. Each rule gives the
findings of a test case; only the rule on expected values looks at values
and can fail.
-/

namespace SmellCheck

/-- What is wrong with a test. -/
inductive Smell where
  | noAssertion
  | manyAssertions (count limit : Nat)
  | conditional (paths : Nat) (loops : Bool)
  | computedBy (callee : String)
  deriving DecidableEq

namespace Smell

/-- The rule that the smell is a violation of. -/
def rule : Smell → Rule
  | noAssertion => .noAsserts
  | manyAssertions _ _ => .multipleAsserts
  | conditional _ _ => .conditionalLogic
  | computedBy _ => .computedExpected

/-- The wording of a smell. -/
def message : Smell → String
  | noAssertion => "test makes no assertion"
  | manyAssertions count limit =>
    Nat.repr count ++ " assertions on one path (limit " ++ Nat.repr limit ++ ")"
  | conditional paths loops =>
    "test has " ++ Nat.repr paths ++ " execution paths"
      ++ if loops then " and contains a loop" else ""
  | computedBy callee => "expected value is computed by " ++ callee

end Smell

/-- A smell at a position of a test's body. -/
structure Finding where
  smell : Smell
  position : Nat
  deriving DecidableEq

namespace TestCase

/-! ## Assertions -/

/-- A test without assertion calls is reported at its entry. -/
def noAsserts (tc : TestCase) : List Finding :=
  if tc.assertionSites.isEmpty then [⟨.noAssertion, 0⟩] else []

/-- The distinct assertion calls on a path, in path order. -/
def sitesOn (tc : TestCase) (path : List Nat) : List Nat :=
  (path.filter tc.assertionSites.contains).eraseDups

/-- The longest list, and the first one of that length. -/
def longest : List (List Nat) → List Nat
  | [] => []
  | sites :: rest => rest.foldl (fun worst s => if worst.length < s.length then s else worst) sites

/-- A path with more assertion calls than the limit is reported, if it
has the most, at the first call past the limit. -/
def multipleAsserts (limit : Nat) (tc : TestCase) : List Finding :=
  let worst := longest (tc.paths.map tc.sitesOn)
  match worst[limit]? with
  | some position => [⟨.manyAssertions worst.length limit, position⟩]
  | none => []

/-! ## Branches -/

/-- The first conditional branch of a body, or its entry. -/
def firstBranch (body : Body) : Nat :=
  (body.findIdx? (·.opcode.flow == .condBranch)).getD 0

/-- A test with more paths than one, or with a loop, is reported at its
first conditional branch. -/
def conditionalLogic (tc : TestCase) : List Finding :=
  let paths := tc.paths
  let loops := paths.any containsLoop
  if paths.length ≤ 1 && !loops then []
  else [⟨.conditional paths.length loops, firstBranch tc.body⟩]

/-! ## Expected values -/

/-- The assertion calls that take the expected value first. -/
def expectationSites (tc : TestCase) : List Nat :=
  tc.assertionSites.filter fun position => tc.body[position]?.any tc.expectsFirst

/-- The method that an instruction calls for a result. Making an object
is no such call. -/
def computing? (ins : Instruction) : Option Signature :=
  if ins.opcode.flow == .call && !ins.opcode.isNewObject then ins.method? else none

/-- The first call in the provenance of a value. -/
def computingCall? (body : Body) (vg : ValueGraph) (id : ValueId) : Option Signature :=
  (vg.provenance id).findSome? fun (k : ValueId) =>
    (vg.value? k).bind fun v => body[v.producer]?.bind computing?

/-- The call that computed the first operand of the instruction at a
position on the path of a value graph. -/
def computedExpectation? (body : Body) (vg : ValueGraph) (site : Nat) : Option Signature :=
  (vg.consumedAt site).head?.bind (computingCall? body vg)

/-- The sites that are reported for one path, leaving out the ones that
were reported before. -/
def computedOn (body : Body) (sites : List Nat) (found : List Finding) (vg : ValueGraph) :
    List Finding :=
  (sites.filter fun site => !found.any (·.position == site)).filterMap fun site =>
    (computedExpectation? body vg site).map fun callee => ⟨.computedBy callee.fullName, site⟩

/-- An assertion whose expected value is made from the result of a call
is reported for the first path on which it is. -/
def computedExpected (tc : TestCase) : Except FlowError (List Finding) :=
  let sites := tc.expectationSites
  if sites.isEmpty then .ok []
  else tc.tracker.map fun t =>
    t.graphs.foldl (fun found vg => found ++ computedOn tc.body sites found vg) []

/-- The findings of a rule, where a path may make so many assertions. -/
def check (limit : Nat) (tc : TestCase) : Rule → Except FlowError (List Finding)
  | .noAsserts => .ok tc.noAsserts
  | .multipleAsserts => .ok (tc.multipleAsserts limit)
  | .conditionalLogic => .ok tc.conditionalLogic
  | .computedExpected => tc.computedExpected

end TestCase

end SmellCheck
