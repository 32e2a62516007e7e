import SmellCheck.Report.Basic
import SmellCheck.Smell.Rule
import SmellCheck.Text.Numeral
import SmellCheck.Text.Quoted
/-!
# Thresholds

A threshold is a severity from which on violations make a run fail.
Without one no run fails.
-/

namespace SmellCheck

/-- The least severity that makes a run fail, if there is one. -/
abbrev Threshold := Option Severity

namespace Threshold

/-- The wording for a text that is no severity. -/
def unknownText (s : String) : String :=
  "invalid --fail-on " ++ Text.quoted s ++ ": must be 'error', 'warning', or 'info'"

/-- The threshold that a text names. The empty text names none. -/
def read? (s : String) : Option Threshold :=
  if s = "" then some none else (Severity.ofName? s).map some

/-- The rank up to which violations count. Without a threshold all do. -/
def rank (t : Threshold) : Nat :=
  (t.getD .info).rank

/-- How many violations are at least as severe as the threshold, in a
signed word of 64 bits. -/
def reached (t : Threshold) (s : Summary) : Int :=
  Text.wrapWord
    ((s.bySeverity.filter fun (name, _) => Severity.rankOfName name ≤ t.rank).foldr
      (fun entry n => entry.2 + n) 0)

/-- The line that says whether the threshold is reached. -/
def verdictText (t : Threshold) (s : Summary) : String :=
  match t with
  | none => ""
  | some severity =>
    let n := t.reached s
    "fail-on " ++ severity.name ++ ": " ++ Text.decimal n ++ " violation(s) ("
      ++ (if 0 < n then "FAIL" else "PASS") ++ ")\n"

/-- The wording of the failure if the threshold is reached. -/
def failure? (t : Threshold) (s : Summary) : Option String :=
  t.bind fun severity =>
    let n := t.reached s
    if 0 < n then
      some (Text.decimal n ++ " violation(s) at or above severity " ++ severity.name)
    else none

end Threshold

end SmellCheck
