import SmellCheck.Text.Quoted
import SmellCheck.Text.Split
/-!
# Flags

Flags stand anywhere among the arguments: by name behind two dashes, or
by letter behind one dash, where letters can be grouped. A value follows
behind an equals sign or as the next argument; switches need none. Behind
two dashes alone there are no flags any more.
-/

namespace SmellCheck

/-- What a flag takes. -/
inductive FlagKind where
  | text
  | switch
  | number
  deriving DecidableEq

/-- A flag of a command. -/
structure Flag where
  name : String
  letter : Option Char
  kind : FlagKind
  deriving DecidableEq

/-- The value of a flag. -/
inductive FlagValue where
  | text (s : String)
  | switch (on : Bool)
  | number (i : Int)
  deriving DecidableEq

/-- Why a value is none of a flag's. -/
inductive FlagValueFault where
  | noSwitch
  | noNumber
  | largeNumber
  deriving DecidableEq

/-- Why arguments cannot be read. -/
inductive FlagError where
  | malformed (arg : String)
  | unknown (name : String)
  | unknownLetter (letter : Char) (group : String)
  | noValue (name : String)
  | noLetterValue (letter : Char) (group : String)
  | badValue (flag : Flag) (value : String) (fault : FlagValueFault)
  deriving DecidableEq

/-- A letter between apostrophes. -/
def quotedLetter (c : Char) : String :=
  let inner := if c = '\'' then ['\\', c] else if c = '"' then [c] else Text.quoteChar c
  String.ofList ('\'' :: inner ++ ['\''])

/-- A flag in a message. -/
def Flag.label (f : Flag) : String :=
  match f.letter with
  | some c => String.ofList ['-', c, ',', ' '] ++ "--" ++ f.name
  | none => "--" ++ f.name

/-- The wording of what is wrong with a value. -/
def FlagValueFault.message (value : String) : FlagValueFault → String
  | noSwitch => "strconv.ParseBool: parsing " ++ Text.quoted value ++ ": invalid syntax"
  | noNumber => "strconv.ParseInt: parsing " ++ Text.quoted value ++ ": invalid syntax"
  | largeNumber => "strconv.ParseInt: parsing " ++ Text.quoted value ++ ": value out of range"

/-- The wording of a failure. -/
def FlagError.message : FlagError → String
  | malformed arg => "bad flag syntax: " ++ arg
  | unknown name => "unknown flag: --" ++ name
  | unknownLetter letter group =>
    "unknown shorthand flag: " ++ quotedLetter letter ++ " in -" ++ group
  | noValue name => "flag needs an argument: --" ++ name
  | noLetterValue letter group =>
    "flag needs an argument: " ++ quotedLetter letter ++ " in -" ++ group
  | badValue flag value fault =>
    "invalid argument " ++ Text.quoted value ++ " for " ++ Text.quoted flag.label ++ " flag: "
      ++ fault.message value

/-! ## Values -/

/-- The truth value of a text. -/
def switchValue? (s : String) : Option Bool :=
  if ["1", "t", "T", "TRUE", "true", "True"].contains s then some true
  else if ["0", "f", "F", "FALSE", "false", "False"].contains s then some false
  else none

/-- The value of a flag that a text stands for. -/
def Flag.value (f : Flag) (s : String) : Except FlagError FlagValue :=
  match f.kind with
  | .text => .ok (.text s)
  | .switch =>
    match switchValue? s with
    | some on => .ok (.switch on)
    | none => .error (.badValue f s .noSwitch)
  | .number =>
    match Text.intLiteral? 64 s.toList with
    | some i => .ok (.number i)
    | none =>
      let literal := (Text.takeSign s.toList).2
      let isLarge := (Text.natLiteral? literal).isSome || Text.literalExceeds literal
      .error (.badValue f s (if isLarge then .largeNumber else .noNumber))

/-! ## Arguments -/

/-- Flags that are set, in order, and the other arguments. -/
structure Arguments where
  settings : List (Flag × FlagValue) := []
  plain : List String := []
  deriving DecidableEq

/-- The settings of one argument, and the flag that takes the next
argument as its value, with the failure if there is none. -/
structure ArgumentUse where
  settings : List (Flag × FlagValue) := []
  pending : Option (Flag × FlagError) := none

namespace Flag

/-- The flag with the given name. -/
def named? (flags : List Flag) (name : String) : Option Flag :=
  flags.find? (·.name == name)

/-- The flag with the given letter. -/
def lettered? (flags : List Flag) (c : Char) : Option Flag :=
  flags.find? (·.letter == some c)

/-- Reads an argument that begins with two dashes, of which the rest is
given. -/
def useName (flags : List Flag) (rest : List Char) : Except FlagError ArgumentUse := do
  if rest.head? = none ∨ rest.head? = some '-' ∨ rest.head? = some '=' then
    throw (.malformed (String.ofList ('-' :: '-' :: rest)))
  let (name, value?) := match Text.cut? ['='] rest with
    | some (name, value) => (String.ofList name, some (String.ofList value))
    | none => (String.ofList rest, none)
  match named? flags name, value? with
  | none, _ => throw (.unknown name)
  | some flag, some value => return { settings := [(flag, ← flag.value value)] }
  | some flag, none =>
    if flag.kind = .switch then return { settings := [(flag, .switch true)] }
    else return { pending := some (flag, .noValue name) }

/-- The first byte of a letter's encoding, as a letter. -/
def leadingByte (c : Char) : Char :=
  match Text.encodeUtf8 [c] with
  | b :: _ => Char.ofNat b.toNat
  | [] => c

/-- Reads a group of letters. A group that begins with `test.` means
nothing. -/
def useLetters (flags : List Flag) : List Char → Except FlagError ArgumentUse
  | [] => .ok {}
  | c :: rest =>
    if Text.startsWith (c :: rest) "test.".toList then .ok {}
    else
      match lettered? flags c with
      | none => .error (.unknownLetter (leadingByte c) (String.ofList (c :: rest)))
      | some flag =>
        match rest, flag.kind with
        | '=' :: d :: value, _ => do
          return { settings := [(flag, ← flag.value (String.ofList (d :: value)))] }
        | rest, .switch => do
          let use ← useLetters flags rest
          return { use with settings := (flag, .switch true) :: use.settings }
        | [], _ => .ok { pending := some (flag, .noLetterValue c (String.ofList [c])) }
        | value, _ => do
          return { settings := [(flag, ← flag.value (String.ofList value))] }

/-- Reads one argument; `none` if it is no flag. -/
def use (flags : List Flag) (arg : String) : Option (Except FlagError ArgumentUse) :=
  match arg.toList with
  | '-' :: '-' :: rest => some (useName flags rest)
  | '-' :: c :: rest => some (useLetters flags (c :: rest))
  | _ => none

/-- Reads arguments. -/
def readAll (flags : List Flag) : List String → Except FlagError Arguments
  | [] => .ok {}
  | arg :: args =>
    if arg = "--" then .ok { plain := args }
    else
      match use flags arg with
      | none => (readAll flags args).map fun a => { a with plain := arg :: a.plain }
      | some (.error e) => .error e
      | some (.ok ⟨settings, none⟩) =>
        (readAll flags args).map fun a => { a with settings := settings ++ a.settings }
      | some (.ok ⟨settings, some (flag, missing)⟩) =>
        match args with
        | [] => .error missing
        | value :: args =>
          match flag.value value with
          | .error e => .error e
          | .ok v =>
            (readAll flags args).map fun a =>
              { a with settings := settings ++ (flag, v) :: a.settings }

end Flag

namespace Arguments

/-- The last value that a flag was set to. -/
def value? (a : Arguments) (name : String) : Option FlagValue :=
  (a.settings.reverse.find? (·.1.name == name)).map (·.2)

/-- The text that a flag was set to, or the given one. -/
def text (a : Arguments) (name unset : String) : String :=
  match a.value? name with
  | some (.text s) => s
  | _ => unset

/-- The switch is on. -/
def isOn (a : Arguments) (name : String) : Bool :=
  a.value? name == some (.switch true)

/-- The number that a flag was set to, or zero. -/
def number (a : Arguments) (name : String) : Int :=
  match a.value? name with
  | some (.number i) => i
  | _ => 0

end Arguments

end SmellCheck
