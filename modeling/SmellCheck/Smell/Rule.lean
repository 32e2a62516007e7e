/-!
# Rules and severities

The rules for test smells and how severe a violation of each is by
default. Reports name rules and severities by text, which may be that of
no rule and no severity.
-/

namespace SmellCheck

/-- How strongly a violation should be acted on. -/
inductive Severity where
  | error
  | warning
  | info
  deriving DecidableEq

namespace Severity

/-- All severities, the most severe first. -/
def all : List Severity :=
  [error, warning, info]

/-- The name of a severity. -/
def name : Severity → String
  | error => "error"
  | warning => "warning"
  | info => "info"

/-- The severity with the given name. -/
def ofName? (s : String) : Option Severity :=
  all.find? (·.name == s)

/-- The place of a severity in the order; lower is more severe. -/
def rank : Severity → Nat
  | error => 0
  | warning => 1
  | info => 2

/-- The place of a severity that is given by name. Names of no severity
rank with the least severe. -/
def rankOfName (s : String) : Nat :=
  ((ofName? s).getD info).rank

end Severity

/-- A rule for tests. -/
inductive Rule where
  /-- A test makes an assertion. -/
  | noAsserts
  /-- A path of a test makes no more assertions than a limit. -/
  | multipleAsserts
  /-- A test has one path. -/
  | conditionalLogic
  /-- An expected value is not computed by a call. -/
  | computedExpected
  deriving DecidableEq

namespace Rule

/-- All rules in the order of reports. -/
def all : List Rule :=
  [noAsserts, multipleAsserts, conditionalLogic, computedExpected]

/-- The name of a rule. -/
def name : Rule → String
  | noAsserts => "no_asserts"
  | multipleAsserts => "multiple_asserts"
  | conditionalLogic => "conditional_logic"
  | computedExpected => "computed_expected"

/-- The rule with the given name. -/
def ofName? (s : String) : Option Rule :=
  all.find? (·.name == s)

/-- The severity of a violation unless another one is configured. -/
def severity : Rule → Severity
  | noAsserts => .error
  | multipleAsserts => .info
  | conditionalLogic => .warning
  | computedExpected => .warning

/-- The default severity of the rule with the given name, the least one
if there is no such rule. -/
def severityOfName (s : String) : Severity :=
  ((ofName? s).map severity).getD .info

end Rule

end SmellCheck
