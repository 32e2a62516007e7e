import SmellCheck.Text.Blank
import SmellCheck.Text.Quoted
import SmellCheck.Text.Split
/-!
# Method signatures

A signature names a method: its declaring type, its name, whether it has
a receiver, what it returns, and its parameters. It is written like

    instance bool Ns.Type::TryGet(string, out int32&)

and the written form is what links a call to a definition.
-/

namespace SmellCheck

/-- How an argument is passed. -/
inductive ParamKind where
  | byValue
  | byRef
  | out
  deriving DecidableEq

/-- A parameter of a method. -/
structure Param where
  type : String
  kind : ParamKind
  deriving DecidableEq

/-- The callee can write through the argument. -/
def Param.isByRef (p : Param) : Bool :=
  p.kind != .byValue

/-- The written form of a parameter. -/
def Param.text (p : Param) : String :=
  match p.kind with
  | .out => "out " ++ p.type ++ "&"
  | .byRef => p.type ++ "&"
  | .byValue => p.type

/-- A method by name and type. -/
structure Signature where
  owner : String
  name : String
  hasThis : Bool
  returns : String
  params : List Param
  deriving DecidableEq

namespace Signature

/-- The declaring type and the name of the method. -/
def fullName (m : Signature) : String :=
  m.owner ++ "::" ++ m.name

/-- The method leaves nothing on the stack. -/
def returnsVoid (m : Signature) : Bool :=
  m.returns == "" || m.returns == "void"

/-- The method is an instance constructor. -/
def isConstructor (m : Signature) : Bool :=
  m.name == ".ctor"

/-- The number of argument slots, the receiver's among them. -/
def argSlots (m : Signature) : Nat :=
  m.params.length + (if m.hasThis then 1 else 0)

/-- The written form of a signature. -/
def text (m : Signature) : String :=
  (if m.hasThis then "instance " else "")
    ++ (if m.returns == "" then "void" else m.returns) ++ " " ++ m.fullName
    ++ "(" ++ ", ".intercalate (m.params.map Param.text) ++ ")"

/-! ## Reading -/

/-- Why a text is no signature. -/
inductive Fault where
  | noOwner
  | noParameters
  | noName
  | noTypes
  deriving DecidableEq

/-- A text that is no signature, and why. -/
structure ReadError where
  text : String
  fault : Fault
  deriving DecidableEq

/-- The wording of a failed reading. -/
def ReadError.message (e : ReadError) : String :=
  "method reference " ++ Text.quoted e.text ++
    match e.fault with
    | .noOwner => " lacks '::'"
    | .noParameters => " lacks a parameter list"
    | .noName => " has no name"
    | .noTypes => " needs a return type and declaring type"

/-- A parameter type without one reference mark at its end. -/
def dropRefMark (t : List Char) : List Char :=
  Text.dropTail ['&'] t

/-- The type of a parameter behind its keyword. -/
def typeAfterKeyword (t : List Char) : String :=
  String.ofList (dropRefMark (Text.trim t))

/-- Reads one parameter. -/
def readParam (p : List Char) : Param :=
  match Text.after? "out ".toList p with
  | some t => ⟨typeAfterKeyword t, .out⟩
  | none =>
    match Text.after? "[out] ".toList p with
    | some t => ⟨typeAfterKeyword t, .out⟩
    | none =>
      match Text.after? "ref ".toList p with
      | some t => ⟨typeAfterKeyword t, .byRef⟩
      | none =>
        if Text.endsWith p ['&'] then ⟨String.ofList (dropRefMark p), .byRef⟩
        else ⟨String.ofList p, .byValue⟩

/-- The nesting of brackets behind a character. -/
def nesting (depth : Int) (c : Char) : Int :=
  if c = '<' ∨ c = '[' then depth + 1
  else if c = '>' ∨ c = ']' then depth - 1
  else depth

/-- The parameters of a list whose current one, read backwards, is
`current`. Commas divide outside of brackets only, and a blank end is no
parameter. -/
def splitParamsAfter (depth : Int) (current : List Char) : List Char → List (List Char)
  | [] =>
    let last := Text.trim current.reverse
    if last.isEmpty then [] else [last]
  | c :: cs =>
    if c = ',' ∧ depth = 0 then Text.trim current.reverse :: splitParamsAfter depth [] cs
    else splitParamsAfter (nesting depth c) (c :: current) cs

/-- The texts of the parameters in a list. -/
def splitParams (cs : List Char) : List (List Char) :=
  splitParamsAfter 0 [] cs

/-- The part in front of the declaring type's name: whether there is a
receiver, the return type and the declaring type. -/
def readHead (head : List Char) : Except Fault (Bool × String × String) :=
  let words := (Text.words head).map String.ofList
  let (hasThis, words) := match words with
    | "instance" :: rest => (true, rest)
    | words => (false, words)
  match words.reverse with
  | owner :: last :: more =>
    .ok (hasThis, " ".intercalate (last :: more).reverse, owner)
  | _ => .error .noTypes

/-- The name and the parameters behind the declaring type. -/
def readTail (tail : List Char) : Except Fault (String × List Param) :=
  match Text.cut? ['('] tail with
  | none => .error .noParameters
  | some (name, params) =>
    if Text.endsWith tail [')'] then
      let name := Text.trim name
      if name.isEmpty then .error .noName
      else .ok (String.ofList name, (splitParams params.dropLast).map readParam)
    else .error .noParameters

/-- Reads a trimmed signature. -/
def readTrimmed (cs : List Char) : Except Fault Signature :=
  match Text.cut? "::".toList cs with
  | none => .error .noOwner
  | some (head, tail) => do
    let (name, params) ← readTail tail
    let (hasThis, returns, owner) ← readHead head
    return { owner, name, hasThis, returns, params }

/-- Reads a signature, without regard to blanks around it. -/
def read (s : String) : Except ReadError Signature :=
  let cs := Text.trim s.toList
  (readTrimmed cs).mapError (⟨String.ofList cs, ·⟩)

end Signature

end SmellCheck
