import SmellCheck.Analysis.Threshold
import SmellCheck.Assembly.Load
import SmellCheck.CommandLine.Command
import SmellCheck.Flow.Trace
import SmellCheck.Report.Json
import SmellCheck.Report.Schema
import SmellCheck.Report.Text
import SmellCheck.Workspace.Scaffold
/-!
# Running commands

A run of a command reads a folder and may write to it. It gives what the
program prints, and a failure if there is one.
-/

namespace SmellCheck

/-- Why a command fails. -/
inductive CommandFailure where
  | usage (e : UsageError)
  | unknownFormat (format : String)
  | unknownThreshold (level : String)
  | interactiveWatch
  | noTerminal
  | noMethodName
  /-- A file or folder is not there or cannot be read or written. -/
  | inaccessible (path : String)
  | settings (file : String) (e : Settings.LoadError)
  | frameworks (names : List String)
  | listing (file : String) (e : LoadError)
  | analysis (e : AnalysisFailure)
  | tree (e : TreeError ReportNode)
  | threshold (text : String)
  | methodNotFound (name assembly : String)
  | ambiguousMethod (name assembly : String) (count : Nat)
  | tracking (method : String) (e : FlowError)
  /-- A test brought the program down. -/
  | aborted
  deriving DecidableEq

/-- The wording of a failure. -/
def CommandFailure.message : CommandFailure → String
  | usage e => e.message
  | unknownFormat format =>
    "invalid format " ++ Text.quoted format ++ ": must be 'text' or 'json'"
  | unknownThreshold level => Threshold.unknownText level
  | interactiveWatch => "--interactive cannot be combined with --watch"
  | noTerminal => "interactive mode needs a terminal on stdout"
  | noMethodName => "--method is required"
  | inaccessible path => "cannot access " ++ Text.quoted path
  | settings file e => e.message file
  | frameworks names => Settings.unknownFrameworksText names
  | listing file e => "loading listing " ++ Text.quoted file ++ ": " ++ e.message
  | analysis e => e.message
  | tree e => Report.treeErrorText e
  | threshold text => text
  | methodNotFound name assembly =>
    "method " ++ Text.quoted name ++ " not found in " ++ assembly
  | ambiguousMethod name assembly count =>
    "method " ++ Text.quoted name ++ " is ambiguous in " ++ assembly ++ ": " ++ Nat.repr count
      ++ " matches"
  | tracking method e => "tracking " ++ method ++ ": " ++ e.message
  | aborted => "panic: " ++ ReplayFault.noRoom.message

/-- The failure is none that is reported: the program was brought down. -/
def CommandFailure.aborts : CommandFailure → Bool
  | tracking _ e => e.aborts
  | aborted => true
  | _ => false

/-- What identifies a run. -/
structure RunStamp where
  runId : String := ""
  runtimeVersion : String := ""
  startedAt : Int := unknownTime
  duration : Int := 0
  deriving DecidableEq

/-- The report with what identifies the run. -/
def Report.stamped (r : Report) (s : RunStamp) : Report :=
  { r with metadata :=
    { r.metadata with
      runId := s.runId
      runtimeVersion := s.runtimeVersion
      startedAt := s.startedAt
      duration := s.duration } }

/-- What a run gives. -/
structure CommandOutcome where
  stdout : String := ""
  stderr : String := ""
  failure : Option CommandFailure := none
  /-- The folder after the run. -/
  folder : Folder
  deriving DecidableEq

/-- The assembly in the named file. -/
def Folder.assembly (f : Folder) (file : String) : Except CommandFailure Assembly :=
  match f.read file with
  | .text source => (Assembly.load source).mapError (.listing file)
  | _ => .error (.inaccessible file)

namespace AnalyzeParams

/-- The options of the analysis, under the settings in the folder. -/
def options (p : AnalyzeParams) (f : Folder) (cancelled : Bool) :
    Except CommandFailure Options := do
  let s ← (f.settings p.config).mapError fun
    | .blocked file => .inaccessible file
    | .invalid file e => .settings file e
  let o ← s.options.mapError .frameworks
  return { o with
    test := p.test
    maxViolations := p.maxViolations
    version := programVersion
    cancelled }

/-- The report in the format that is asked for. -/
def reportText (p : AnalyzeParams) (r : Report) : Except CommandFailure String :=
  if p.format = "json" then .ok r.jsonText
  else (r.text ⟨p.verbose, p.hideClean⟩).mapError .tree

/-- The report on the listing and its text. -/
def report (p : AnalyzeParams) (f : Folder) (cancelled : Bool) (stamp : RunStamp) :
    Except CommandFailure (Report × String) := do
  let o ← p.options f cancelled
  let a ← f.assembly p.listing
  if !o.cancelled && (a.selectedTests o).any (a.aborts o) then throw .aborted
  let r ← (a.analyze o).mapError .analysis
  let r := r.stamped stamp
  return (r, ← p.reportText r)

/-- Analyzes the listing once. -/
def runOnce (p : AnalyzeParams) (t : Threshold) (f : Folder) (cancelled : Bool)
    (stamp : RunStamp) : CommandOutcome :=
  match p.report f cancelled stamp with
  | .error e => { failure := some e, folder := f }
  | .ok (r, text) =>
    { stdout := text
      stderr := t.verdictText r.summary
      failure := (t.failure? r.summary).map .threshold
      folder := f }

/-- What is wrong with the parameters, if anything is. -/
def fault? (p : AnalyzeParams) : Option CommandFailure :=
  if p.format ≠ "text" ∧ p.format ≠ "json" then some (.unknownFormat p.format)
  else if (Threshold.read? p.failOn).isNone then some (.unknownThreshold p.failOn)
  else if p.interactive ∧ p.watch then some .interactiveWatch
  else if p.interactive then some .noTerminal
  else none

/-- The files that are watched. -/
def watched (p : AnalyzeParams) : List String :=
  [p.listing, if p.config = "" then settingsFile else p.config]

/-- Analyzes the listing, once also if it is to be watched. A failure that
is reported does not end watching. -/
def run (p : AnalyzeParams) (f : Folder) (cancelled : Bool) (stamp : RunStamp) :
    CommandOutcome :=
  match p.fault?, (Threshold.read? p.failOn).getD none with
  | some e, _ => { failure := some e, folder := f }
  | none, t =>
    if p.watch then
      match p.watched.find? fun file => !f.hasAround (FilePath.ofText file).parent with
      | some file => { failure := some (.inaccessible file), folder := f }
      | none =>
        let outcome := p.runOnce t f cancelled stamp
        { outcome with failure := outcome.failure.filter (·.aborts) }
    else p.runOnce t f cancelled stamp

end AnalyzeParams

/-- The trace of the method with the given name in a listing. -/
def Folder.trace (f : Folder) (listing name : String) : Except CommandFailure String := do
  if name = "" then throw .noMethodName
  let a ← f.assembly listing
  match a.lookup name with
  | [] => throw (.methodNotFound name a.name)
  | [m] =>
    let t ← (ValueTracker.ofMethod m).mapError (.tracking m.fullName)
    return t.text
  | found => throw (.ambiguousMethod name a.name found.length)

namespace Command

/-- The files that a command may read or write. -/
def files : Command → List String
  | analyze p => p.watched
  | paths listing _ => [listing]
  | init _ => [settingsFile]
  | _ => []

/-- Runs a command in a folder. -/
def run (f : Folder) (cancelled : Bool) (stamp : RunStamp) : Command → CommandOutcome
  | analyze p => p.run f cancelled stamp
  | paths listing method =>
    match f.trace listing method with
    | .ok text => { stdout := text, folder := f }
    | .error e => { failure := some e, folder := f }
  | schema => { stdout := Schema.reportText ++ "\n", folder := f }
  | init force =>
    match f.scaffold? [] force programVersion with
    | some (result, folder) => { stdout := result.text, folder }
    | none => { failure := some (.inaccessible settingsFile), folder := f }
  | version =>
    { stdout := programName ++ " version " ++ programVersion ++ "\n", folder := f }
  | help => { folder := f }

/-- Runs the command that arguments stand for. -/
def runArguments (f : Folder) (cancelled : Bool) (stamp : RunStamp) (args : List String) :
    CommandOutcome :=
  match read args with
  | .ok command => command.run f cancelled stamp
  | .error e => { failure := some (.usage e), folder := f }

end Command

end SmellCheck
