import SmellCheck.CommandLine.Flag
import SmellCheck.Text.Folding
/-!
# Commands

The first argument that is no flag names a command, and the other
arguments are those of the command. An argument behind an unknown flag
counts as the value of the flag while the command is looked for. For a
name of no command the nearest names are suggested. The completion of
commands has a command of its own for each shell.
-/

namespace SmellCheck

/-- The name of the program. -/
def programName : String := "testsmell"

/-- The version of the program. -/
def programVersion : String := "dev"

/-- The shells that can complete commands. -/
inductive Shell where
  | bash
  | fish
  | powershell
  | zsh
  deriving DecidableEq

namespace Shell

/-- All shells. -/
def all : List Shell :=
  [bash, fish, powershell, zsh]

/-- The name of a shell. -/
def name : Shell → String
  | bash => "bash"
  | fish => "fish"
  | powershell => "powershell"
  | zsh => "zsh"

/-- The shell with the given name. -/
def ofName? (s : String) : Option Shell :=
  all.find? (·.name == s)

end Shell

/-- What the program can be told to do. -/
inductive CommandName where
  | analyze
  | paths
  | schema
  | init
  | help
  /-- Completion of commands, in general or in one shell. -/
  | completion (shell : Option Shell)
  deriving DecidableEq

namespace CommandName

/-- The commands that one word names. -/
def all : List CommandName :=
  [analyze, paths, schema, init, help, completion none]

/-- The name of a command, which may be two words. -/
def name : CommandName → String
  | analyze => "analyze"
  | paths => "paths"
  | schema => "schema"
  | init => "init"
  | help => "help"
  | completion none => "completion"
  | completion (some shell) => "completion " ++ shell.name

/-- The command that the given word names. -/
def ofName? (s : String) : Option CommandName :=
  all.find? (·.name == s)

/-- The switch that every command has. -/
def helpFlag : Flag := ⟨"help", some 'h', .switch⟩

/-- The flags of a command. -/
def flags : CommandName → List Flag
  | analyze =>
    [⟨"format", none, .text⟩, ⟨"config", none, .text⟩, ⟨"test", some 't', .text⟩,
     ⟨"interactive", some 'i', .switch⟩, ⟨"watch", some 'w', .switch⟩,
     ⟨"max-violations", none, .number⟩, ⟨"verbose", some 'v', .switch⟩,
     ⟨"hide-clean", none, .switch⟩, ⟨"fail-on", none, .text⟩, helpFlag]
  | paths => [⟨"method", some 'm', .text⟩, helpFlag]
  | init => [⟨"force", none, .switch⟩, helpFlag]
  | completion (some _) => [⟨"no-descriptions", none, .switch⟩, helpFlag]
  | schema | help | completion none => [helpFlag]

end CommandName

/-- The flags without a command. -/
def programFlags : List Flag :=
  [CommandName.helpFlag, ⟨"version", some 'v', .switch⟩]

/-! ## Looking for the command -/

/-- The argument may take the next one as its value: a name behind two
dashes or one letter behind a dash, without an equals sign. -/
def takesNext (arg : String) : Bool :=
  !Text.contains arg.toList ['='] &&
    match arg.toList with
    | '-' :: '-' :: _ => true
    | ['-', c] => c.toNat < 0x80
    | _ => false

/-- The first argument that is no flag and no value of one. The last
argument is not taken for a value. -/
def firstWord? : List String → Option String
  | [] => none
  | arg :: args =>
    if arg = "--" then none
    else if takesNext arg then
      match args with
      | [] | [_] => none
      | _ :: args => firstWord? args
    else if arg = "" ∨ arg.startsWith "-" then firstWord? args
    else some arg

/-- The arguments without the first one that is the given word, is no
flag and no value of one. -/
def withoutWord (word : String) : List String → List String
  | [] => []
  | arg :: args =>
    if arg = "--" then arg :: args
    else if takesNext arg then
      match args with
      | [] => [arg]
      | value :: args => arg :: value :: withoutWord word args
    else if arg = word then args
    else arg :: withoutWord word args

/-- The command that a word names, and the arguments without the words of
its name. -/
def splitCommand? (word : String) (args : List String) : Option (CommandName × List String) :=
  (CommandName.ofName? word).map fun name =>
    let args := withoutWord word args
    let shellWord := (firstWord? args).filter fun _ => name = .completion none
    match shellWord.bind fun word => (Shell.ofName? word).map (word, ·) with
    | some (word, shell) => (.completion (some shell), withoutWord word args)
    | none => (name, args)

/-! ## Suggestions -/

/-- So many insertions, deletions and replacements of single bytes can make
one string of bytes the other. -/
def withinEdits : (edits : Nat) → (s t : Bytes) → Bool
  | edits, [], t => t.length ≤ edits
  | edits, s, [] => s.length ≤ edits
  | edits, b :: s, c :: t =>
    if b = c then withinEdits edits s t
    else
      match edits with
      | 0 => false
      | edits + 1 =>
        withinEdits edits s t || withinEdits edits s (c :: t) || withinEdits edits (b :: s) t
termination_by _ s t => s.length + t.length

/-- How far a suggestion may be from what was written. -/
def suggestionDistance : Nat := 2

/-- The name may be meant by what was written, in small letters: it begins
with it, or differs little from it. -/
def isSuggested (written name : String) : Bool :=
  let written := (Text.lower written).toList
  let name := (Text.lower name).toList
  Text.startsWith name written ||
    withinEdits suggestionDistance (Text.encodeUtf8 written) (Text.encodeUtf8 name)

/-- The names of commands that may be meant. The one for help is not
suggested. -/
def suggestions (written : String) : List String :=
  ((CommandName.all.filter (· ≠ .help)).map CommandName.name).filter (isSuggested written)

/-- The wording of suggestions. -/
def suggestionText (names : List String) : String :=
  if names.isEmpty then ""
  else "\n\nDid you mean this?\n" ++ String.join (names.map fun name => "\t" ++ name ++ "\n")

/-! ## Reading -/

/-- Why arguments make no command. -/
inductive UsageError where
  | flag (e : FlagError)
  | unknownCommand (word within : String) (suggested : List String)
  | argumentCount (expected received : Nat)
  deriving DecidableEq

/-- The wording of a failure. -/
def UsageError.message : UsageError → String
  | flag e => e.message
  | unknownCommand word within suggested =>
    "unknown command " ++ Text.quoted word ++ " for " ++ Text.quoted within
      ++ suggestionText suggested
  | argumentCount expected received =>
    "accepts " ++ Nat.repr expected ++ " arg(s), received " ++ Nat.repr received

/-- What the analysis of a listing is told. -/
structure AnalyzeParams where
  listing : String
  format : String
  config : String
  test : String
  interactive : Bool
  watch : Bool
  maxViolations : Int
  verbose : Bool
  hideClean : Bool
  failOn : String
  deriving DecidableEq

/-- What the program is told to do. -/
inductive Command where
  | analyze (params : AnalyzeParams)
  | paths (listing method : String)
  | schema
  | init (force : Bool)
  | version
  /-- Explains the program, or how a shell completes its commands. -/
  | help
  deriving DecidableEq

namespace Command

/-- The only plain argument. -/
def onePlain (a : Arguments) : Except UsageError String :=
  match a.plain with
  | [arg] => .ok arg
  | args => .error (.argumentCount 1 args.length)

/-- There is no plain argument. -/
def noPlain (name : CommandName) (a : Arguments) : Except UsageError Unit :=
  match a.plain with
  | [] => .ok ()
  | arg :: _ => .error (.unknownCommand arg (programName ++ " " ++ name.name) [])

/-- The command with the given name and arguments. -/
def ofArguments (name : CommandName) (a : Arguments) : Except UsageError Command := do
  if a.isOn "help" then return .help
  match name with
  | .analyze =>
    return .analyze
      { listing := ← onePlain a
        format := a.text "format" "text"
        config := a.text "config" ""
        test := a.text "test" ""
        interactive := a.isOn "interactive"
        watch := a.isOn "watch"
        maxViolations := a.number "max-violations"
        verbose := a.isOn "verbose"
        hideClean := a.isOn "hide-clean"
        failOn := a.text "fail-on" "" }
  | .paths => return .paths (← onePlain a) (a.text "method" "")
  | .schema =>
    noPlain name a
    return .schema
  | .init =>
    noPlain name a
    return .init (a.isOn "force")
  | .completion (some _) =>
    noPlain name a
    return .help
  | .help | .completion none => return .help

/-- The command that arguments stand for. -/
def read (args : List String) : Except UsageError Command := do
  match firstWord? args with
  | none =>
    let a ← (Flag.readAll programFlags args).mapError .flag
    return if a.isOn "version" && !a.isOn "help" then .version else .help
  | some word =>
    match splitCommand? word args with
    | none => throw (.unknownCommand word programName (suggestions word))
    | some (name, args) =>
      let a ← (Flag.readAll name.flags args).mapError .flag
      ofArguments name a

end Command

end SmellCheck
