import SmellCheck.Settings.Basic
import SmellCheck.Workspace.Folder
/-!
# The starter settings

`Folder.scaffold` writes a settings file with the standard settings into
a folder. The first line of the file says which version wrote it. A file
that is there is kept unless it is to be replaced.
-/

namespace SmellCheck

/-- The name of the settings file. -/
def settingsFile : String := ".testsmell.yaml"

/-- The text of the starter settings. -/
def starterText : String :=
  String.join (List.map (· ++ "\n")
    ["# testsmell configuration. Every key is optional; removing this file",
     "# restores the defaults shown here.",
     "",
     "rules:",
     "  no_asserts:",
     "    enabled: true",
     "    severity: error",
     "  multiple_asserts:",
     "    enabled: true",
     "    severity: info",
     "    # Assertions allowed on a single execution path.",
     "    max: 1",
     "  conditional_logic:",
     "    enabled: true",
     "    severity: warning",
     "  computed_expected:",
     "    enabled: true",
     "    severity: warning",
     "",
     "# Test frameworks whose attributes mark test methods: nunit, xunit, mstest.",
     "frameworks: [nunit, xunit, mstest]",
     "",
     "# Extra types whose methods count as assertions, e.g. FluentAssertions",
     "# or project helpers.",
     "assertion_types: []",
     "",
     "# Glob filters on \"Namespace.Type::Method\". \"Namespace.**\" matches a whole",
     "# namespace; a pattern without \"::\" matches the method name alone.",
     "methods:",
     "  include: []",
     "  exclude: []"])

/-- What stands in front of the version in the first line. -/
def markerLead : String := "# scaffolded by testsmell "

/-- The version in the first line of a file. -/
def markerVersion? (text : String) : Option String :=
  let line := (Text.splitOn '\n' text.toList).headD []
  let line := (line.reverse.dropWhile (· == '\r')).reverse
  match Text.after? markerLead.toList line with
  | none | some [] => none
  | some version => some (String.ofList version)

/-- What was done with the settings file. -/
inductive ScaffoldAction where
  | created
  | skipped
  | overwritten
  deriving DecidableEq

/-- The name of an action. -/
def ScaffoldAction.name : ScaffoldAction → String
  | created => "created"
  | skipped => "skipped"
  | overwritten => "overwritten"

/-- What was done and which version had written the file before, if one
had. -/
structure ScaffoldResult where
  action : ScaffoldAction
  previous : Option String
  deriving DecidableEq

/-- The account of what was done. -/
def ScaffoldResult.text (r : ScaffoldResult) : String :=
  "testsmell configuration initialized:\n" ++
    match r.action with
    | .skipped =>
      let origin := match r.previous with
        | some version => "from testsmell " ++ version
        | none => "written by hand"
      "  skipped: " ++ settingsFile ++ " (already exists, " ++ origin ++ ")\n"
        ++ "use --force to overwrite.\n"
    | action => "  " ++ action.name ++ ": " ++ settingsFile ++ "\n"

/-- Writes the starter settings into the folder at a path; `none` if
the file cannot be read or written. -/
def Folder.scaffold? (f : Folder) (dir : FilePath) (force : Bool) (version : String) :
    Option (ScaffoldResult × Folder) :=
  let path := dir ++ [settingsFile]
  let text := markerLead ++ (if version = "" then "dev" else version) ++ "\n" ++ starterText
  match f.read path.text with
  | .blocked => none
  | .absent => (f.write? path text).map (⟨.created, none⟩, ·)
  | .text standing =>
    let previous := markerVersion? standing
    if force then (f.write? path text).map (⟨.overwritten, previous⟩, ·)
    else some (⟨.skipped, previous⟩, f)

/-! ## Settings from a folder -/

/-- Why a folder gives no settings. -/
inductive SettingsFailure where
  | blocked (file : String)
  | invalid (file : String) (e : Settings.LoadError)
  deriving DecidableEq

/-- The settings in the named file, or in the one with the usual name if
the name is empty. Without a file they are the standard ones. -/
def Folder.settings (f : Folder) (file : String) : Except SettingsFailure Settings :=
  let file := if file = "" then settingsFile else file
  match f.read file with
  | .absent => .ok .standard
  | .blocked => .error (.blocked file)
  | .text source => (Settings.load source).mapError (.invalid file)

end SmellCheck
