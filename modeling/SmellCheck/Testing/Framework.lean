import SmellCheck.Bytecode.Method
import SmellCheck.Text.Folding
/-!
# Test frameworks

A framework says which attributes mark a test, which types hold
assertions, and which assertions take the expected value first. A
registry is a list of frameworks that are recognised together.
-/

namespace SmellCheck

/-- A unit-test framework. -/
structure Framework where
  name : String
  /-- Full or short names of the attributes that mark a test. -/
  testAttributes : List String
  /-- The full names of the types whose methods are assertions. -/
  assertionTypes : List String
  /-- The names of the assertions that take the expected value first. -/
  expectedFirst : List String
  deriving DecidableEq

namespace Framework

/-- The framework's mark is on the method. -/
def marks (f : Framework) (m : Method) : Bool :=
  f.testAttributes.any m.hasAttribute

/-- The signature is that of an assertion of the framework. -/
def isAssertion (f : Framework) (s : Signature) : Bool :=
  f.assertionTypes.contains s.owner

/-- The signature is that of an assertion of the framework that takes the
expected value first. -/
def expectsFirst (f : Framework) (s : Signature) : Bool :=
  f.isAssertion s && f.expectedFirst.contains s.name

/-- NUnit. -/
def nunit : Framework where
  name := "nunit"
  testAttributes :=
    ["NUnit.Framework.Test", "NUnit.Framework.TestCase", "NUnit.Framework.TestCaseSource"]
  assertionTypes :=
    ["NUnit.Framework.Assert", "NUnit.Framework.StringAssert",
     "NUnit.Framework.CollectionAssert", "NUnit.Framework.FileAssert",
     "NUnit.Framework.DirectoryAssert"]
  expectedFirst := ["AreEqual", "AreNotEqual", "AreSame", "AreNotSame"]

/-- xUnit. -/
def xunit : Framework where
  name := "xunit"
  testAttributes := ["Xunit.Fact", "Xunit.Theory"]
  assertionTypes := ["Xunit.Assert"]
  expectedFirst := ["Equal", "NotEqual", "Same", "NotSame", "StrictEqual"]

/-- MSTest. -/
def mstest : Framework where
  name := "mstest"
  testAttributes :=
    ["Microsoft.VisualStudio.TestTools.UnitTesting.TestMethod",
     "Microsoft.VisualStudio.TestTools.UnitTesting.DataTestMethod"]
  assertionTypes :=
    ["Microsoft.VisualStudio.TestTools.UnitTesting.Assert",
     "Microsoft.VisualStudio.TestTools.UnitTesting.StringAssert",
     "Microsoft.VisualStudio.TestTools.UnitTesting.CollectionAssert"]
  expectedFirst := ["AreEqual", "AreNotEqual", "AreSame", "AreNotSame"]

/-- The framework of assertion types that belong to no other one. -/
def custom (assertionTypes : List String) : Framework :=
  ⟨"custom", [], assertionTypes, []⟩

end Framework

/-- The frameworks that are recognised, in order. -/
structure Registry where
  frameworks : List Framework
  deriving DecidableEq

namespace Registry

/-- The frameworks that are known without being described. -/
def builtin : Registry :=
  ⟨[.nunit, .xunit, .mstest]⟩

/-- The registry with a framework behind the others. -/
def add (r : Registry) (f : Framework) : Registry :=
  ⟨r.frameworks ++ [f]⟩

/-- The first framework with the given name, in any case. -/
def find? (r : Registry) (name : String) : Option Framework :=
  r.frameworks.find? (Text.sameInAnyCase ·.name name)

/-- The named frameworks in the order of the names. A framework that is
named twice is there twice. -/
def select (r : Registry) (names : List String) : Registry :=
  ⟨names.filterMap r.find?⟩

/-- The names that no framework has. -/
def unknown (r : Registry) (names : List String) : List String :=
  names.filter fun name => (r.find? name).isNone

/-- The registry with further assertion types. -/
def withAssertionTypes (r : Registry) (types : List String) : Registry :=
  if types.isEmpty then r else r.add (.custom types)

/-- The framework that the method is a test of. -/
def frameworkOf? (r : Registry) (m : Method) : Option Framework :=
  r.frameworks.find? (·.marks m)

/-- The method is a test. -/
def isTest (r : Registry) (m : Method) : Bool :=
  (r.frameworkOf? m).isSome

/-- The signature is that of an assertion. -/
def isAssertion (r : Registry) (s : Signature) : Bool :=
  r.frameworks.any (·.isAssertion s)

/-- The signature is that of an assertion that compares its first
argument, the expected value, with a later one. -/
def expectsFirst (r : Registry) (s : Signature) : Bool :=
  2 ≤ s.params.length && r.frameworks.any (·.expectsFirst s)

end Registry

end SmellCheck
