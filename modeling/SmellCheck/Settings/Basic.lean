import SmellCheck.Analysis.Run
import SmellCheck.Settings.Filter
import SmellCheck.Yaml.Value
/-!
# Settings

The settings file says which rules run and how severe they are, which
frameworks are recognised, which further types hold assertions, and which
methods are analyzed. What the file does not mention keeps its standard
setting.
-/

namespace SmellCheck

/-- The settings of one rule. -/
structure RuleSettings where
  /-- Whether the rule runs; it does if nothing is said. -/
  enabled : Option Bool := none
  /-- The name of the severity; the standard one if empty. -/
  severity : String := ""
  /-- The most assertions on a path; the standard limit if zero. -/
  max : Int := 0
  deriving DecidableEq

/-- The settings of an analysis. -/
structure Settings where
  /-- The settings of rules by name, no name twice. -/
  rules : List (String × RuleSettings)
  frameworks : List String
  assertionTypes : List String
  methods : MethodFilter
  deriving DecidableEq

namespace Settings

/-- The settings without a file. -/
def standard : Settings where
  rules := [(Rule.multipleAsserts.name, { max := 1 })]
  frameworks := ["nunit", "xunit", "mstest"]
  assertionTypes := []
  methods := {}

/-! ## Reading -/

/-- Sets the settings of the rule with the given name. -/
def putRule (name : String) (r : RuleSettings) (rules : List (String × RuleSettings)) :
    List (String × RuleSettings) :=
  rules.filter (·.1 != name) ++ [(name, r)]

open Yaml in
/-- Reads the settings of a rule; `none` for null. -/
def readRule? (n : Node) : Read (Option RuleSettings) := do
  match ← n.entries? with
  | none => return none
  | some es =>
    return some { enabled := ← field es "enabled" none fun n => return (← n.bool?).map some
                  severity := ← field es "severity" "" Node.string?
                  max := ← field es "max" 0 Node.int? }

/-- The entries of which no earlier one has the same name. -/
def firstByName {α : Type} (es : List (String × α)) : List (String × α) :=
  es.foldl (fun found e => if found.any (·.1 == e.1) then found else found ++ [e]) []

open Yaml in
/-- Reads rules on top of others. A rule that is null keeps what it has.
Rules that are taken in from other mappings come last, and of those with
one name the first. -/
def readRules (n : Node) (rules : List (String × RuleSettings)) :
    Read (List (String × RuleSettings)) := do
  match ← n.entries? with
  | none => return []
  | some es =>
    (es.own ++ firstByName es.merged).foldlM (fun rules (name, value) => do
      match ← readRule? value with
      | some r => return putRule name r rules
      | none => return if (rules.lookup name).isSome then rules else putRule name {} rules) rules

open Yaml in
/-- Reads a list of texts on top of another, which it replaces. -/
def readTexts (entries : Entries) (name : String) (standing : List String) :
    Read (List String) := do
  match ← entries.find? name with
  | none => return standing
  | some n => n.list Node.string?

open Yaml in
/-- Reads a method filter on top of another one. -/
def readFilter (n : Node) (standing : MethodFilter) : Read MethodFilter := do
  match ← n.entries? with
  | none => return standing
  | some es =>
    return { included := ← readTexts es "include" standing.included
             excluded := ← readTexts es "exclude" standing.excluded }

open Yaml in
/-- Reads settings on top of the standard ones. -/
def read (n : Node) : Read Settings := do
  match ← n.entries? with
  | none => return standard
  | some es =>
    return { rules := ← match ← es.find? "rules" with
               | none => pure standard.rules
               | some n => readRules n standard.rules
             frameworks := ← readTexts es "frameworks" standard.frameworks
             assertionTypes := ← readTexts es "assertion_types" standard.assertionTypes
             methods := ← match ← es.find? "methods" with
               | none => pure standard.methods
               | some n => readFilter n standard.methods }

/-! ## Validity -/

/-- A setting that makes no sense. -/
inductive Problem where
  | unknownRule (name : String)
  | unknownSeverity (rule : Rule) (severity : String)
  | negativeMax
  deriving DecidableEq

/-- The wording of a problem. -/
def Problem.message : Problem → String
  | unknownRule name => "unknown rule " ++ Text.quoted name
  | unknownSeverity rule severity =>
    "rule " ++ rule.name ++ ": unknown severity " ++ Text.quoted severity
  | negativeMax => "rule " ++ Rule.multipleAsserts.name ++ ": max must not be negative"

/-- The problems with the settings of one rule. -/
def ruleProblems (name : String) (r : RuleSettings) : List Problem :=
  match Rule.ofName? name with
  | none => [.unknownRule name]
  | some rule =>
    (if r.severity = "" ∨ (Severity.ofName? r.severity).isSome then []
      else [.unknownSeverity rule r.severity]) ++
    (if rule = .multipleAsserts ∧ r.max < 0 then [.negativeMax] else [])

/-- All problems with the settings. -/
def problems (s : Settings) : List Problem :=
  s.rules.flatMap fun (name, r) => ruleProblems name r

/-- Why there are no settings. -/
inductive LoadError where
  | unreadable (e : Yaml.ReadError)
  | invalid (problems : List Problem)
  deriving DecidableEq

/-- The wording of a failure, with the problems in the order of their
wordings. -/
def LoadError.message (file : String) : LoadError → String
  | unreadable _ => "parsing config " ++ Text.quoted file ++ ": the document cannot be read"
  | invalid problems =>
    let texts := (problems.map Problem.message).mergeSort fun x y => x ≤ y
    "config " ++ Text.quoted file ++ ": " ++ "; ".intercalate texts ++ ": invalid config"

/-- The settings of a document. -/
def ofYaml (d : Yaml.Document) : Except LoadError Settings := do
  let s ← (d.get read).mapError .unreadable
  if s.problems.isEmpty then return s else throw (.invalid s.problems)

/-- The settings of a file's text. -/
def load (source : String) : Except LoadError Settings := do
  let d ← (Yaml.readDocument source).mapError .unreadable
  ofYaml d

/-! ## Use -/

/-- The rule with the given name runs. -/
def ruleEnabled (s : Settings) (name : String) : Bool :=
  ((s.rules.lookup name).bind (·.enabled)).getD true

/-- The name of the severity of the rule with the given name: what is set
for it, whatever that is, and the standard one if nothing is. -/
def severityOf (s : Settings) (name : String) : String :=
  match s.rules.lookup name with
  | some r => if r.severity = "" then (Rule.severityOfName name).name else r.severity
  | none => (Rule.severityOfName name).name

/-- The most assertions on a path. -/
def maxAsserts (s : Settings) : Int :=
  match s.rules.lookup Rule.multipleAsserts.name with
  | some r => if 0 < r.max then r.max else 1
  | none => 1

/-- The checks that the settings ask for; `none` if they enable no rule. -/
def checks (s : Settings) : Option Checks :=
  Checks.enabled (fun rule => s.ruleEnabled rule.name) s.maxAsserts

/-- The names of frameworks that are not known. -/
def unknownFrameworks (s : Settings) : List String :=
  Registry.builtin.unknown s.frameworks

/-- The wording of names of frameworks that are not known. -/
def unknownFrameworksText (names : List String) : String :=
  "unknown framework(s): " ++ ", ".intercalate names

/-- The options of an analysis under the settings; the names of unknown
frameworks if there are any. -/
def options (s : Settings) : Except (List String) Options :=
  if s.unknownFrameworks.isEmpty then
    .ok { registry := (Registry.builtin.select s.frameworks).withAssertionTypes s.assertionTypes
          checks := s.checks
          severity := fun rule => s.severityOf rule.name
          accepted := s.methods.accepts }
  else .error s.unknownFrameworks

end Settings

end SmellCheck
