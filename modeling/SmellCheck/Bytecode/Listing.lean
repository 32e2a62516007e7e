import SmellCheck.Bytecode.Instruction
import SmellCheck.Real64.Literal
/-!
# Instruction listings

A listing has one instruction a line:

    IL_0000: ldc.i4.1
    IL_0001: call void Calc::Check(int32, out int32&)
    IL_0006: brtrue.s IL_0000

The label may be left out; the offset is then one more than the offset
before. A line `.line 12 'CalcTests.cs'` gives the source place of the
next instruction. What follows `//` outside of a string is a comment.
Lines are read in order into drafts, whose branches still name labels;
when all are read, the labels are looked up.
-/

namespace SmellCheck

/-! ## Faults -/

/-- What is wrong behind a mnemonic. -/
inductive OperandFault where
  | unexpected (text : String)
  | missing
  | emptySwitch
  | badSlot (text : String)
  | badInteger (text : String)
  | badReal (text : String)
  | badString (text : String)
  | badSignature (e : Signature.ReadError)
  deriving DecidableEq

/-- The wording of what is wrong behind a mnemonic. -/
def OperandFault.message : OperandFault → String
  | unexpected s => "unexpected operand " ++ Text.quoted s
  | missing => "missing operand"
  | emptySwitch => "empty switch table"
  | badSlot s => "bad slot index " ++ Text.quoted s
  | badInteger s => "bad integer " ++ Text.quoted s
  | badReal s => "bad float " ++ Text.quoted s
  | badString s => "bad string literal " ++ s
  | badSignature e => e.message

/-- What is wrong on a line. -/
inductive LineFault where
  | pointWithoutLine
  | badPointLine (text : String)
  | badLabel (text : String)
  | duplicateLabel (offset : Int)
  | unknownOpcode (mnemonic : String)
  | operand (mnemonic : String) (fault : OperandFault)
  | undefinedLabel (label : String)
  deriving DecidableEq

/-- The wording of what is wrong on a line. -/
def LineFault.message : LineFault → String
  | pointWithoutLine => ".line without a line number"
  | badPointLine s => "bad .line number " ++ Text.quoted s
  | badLabel s => "bad label " ++ Text.quoted s
  | duplicateLabel offset => "duplicate label " ++ labelOf offset
  | unknownOpcode mnemonic => "unknown opcode " ++ Text.quoted mnemonic
  | operand mnemonic fault => mnemonic ++ ": " ++ fault.message
  | undefinedLabel label => "undefined label " ++ label

/-- The first fault of a listing, and its line counted from one. -/
structure ListingError where
  line : Nat
  fault : LineFault
  deriving DecidableEq

/-- The wording that ends every syntax error. -/
def syntaxErrorText : String := "il syntax error"

/-- The wording of a listing's first fault. -/
def ListingError.message (e : ListingError) : String :=
  "line " ++ Nat.repr e.line ++ ": " ++ e.fault.message ++ ": " ++ syntaxErrorText

namespace Listing

open Text

/-! ## Lines -/

/-- The line without its comment. Inside of a string, two slashes are
text, and a backslash hides the character behind it. -/
def stripComment (inString : Bool) : List Char → List Char
  | [] => []
  | '\\' :: c :: cs =>
    if inString then '\\' :: c :: stripComment true cs
    else '\\' :: stripComment false (c :: cs)
  | '/' :: '/' :: cs =>
    if inString then '/' :: stripComment true ('/' :: cs) else []
  | c :: cs => c :: stripComment (if c = '"' then !inString else inString) cs

/-- The quotes around a file name. -/
def isFileQuote (c : Char) : Bool :=
  c == '\'' || c == '"'

/-- The text without quotes at either end. -/
def dropFileQuotes (cs : List Char) : List Char :=
  ((cs.dropWhile isFileQuote).reverse.dropWhile isFileQuote).reverse

/-- Reads what follows `.line`: a line number and a file name. -/
def readPoint (cs : List Char) : Except LineFault SourcePoint :=
  match words cs with
  | [] => .error .pointWithoutLine
  | number :: file =>
    match int? 10 64 number with
    | none => .error (.badPointLine (String.ofList number))
    | some line => .ok ⟨String.ofList (dropFileQuotes ([' '].intercalate file)), line⟩

/-- The offset that a label names, if it is one of 32 bits. -/
def offset? (label : List Char) : Option Int :=
  int? 16 32 (dropLead "IL_".toList label)

/-- The text before a colon is a label. -/
def isLabel (cs : List Char) : Bool :=
  let cs := trim cs
  startsWith cs "IL_".toList && !cs.any fun c => c == ' ' || c == '\t'

/-- The label in front of an instruction, if there is one, and the
instruction. -/
def splitLabel (line : List Char) : Option (List Char) × List Char :=
  match cut? [':'] line with
  | some (label, rest) => if isLabel label then (some label, trim rest) else (none, line)
  | none => (none, line)

/-! ## Operands -/

/-- An operand whose branches name labels. -/
inductive DraftOperand where
  | ready (operand : Operand)
  | branch (label : List Char)
  | switch (labels : List (List Char))

/-- The labels of a switch table. -/
def switchLabels (cs : List Char) : List (List Char) :=
  ((splitOn ',' (dropTail [')'] (dropLead ['('] cs))).map trim).filter (!·.isEmpty)

/-- Reads a non-empty operand of the given kind. -/
def readOperand (kind : OperandKind) (cs : List Char) : Except OperandFault DraftOperand :=
  let s := String.ofList cs
  match kind with
  | .nothing => .error (.unexpected s)
  | .branchTarget => .ok (.branch cs)
  | .switchTable =>
    let labels := switchLabels cs
    if labels.isEmpty then .error .emptySwitch else .ok (.switch labels)
  | .method =>
    match Signature.read s with
    | .ok m => .ok (.ready (.method m))
    | .error e => .error (.badSignature e)
  | .localSlot | .argSlot =>
    match int? 10 64 (dropLead "V_".toList cs) with
    | some (.ofNat i) => .ok (.ready (.slot i))
    | _ => .error (.badSlot s)
  | .int32 | .int64 =>
    match intLiteral? 64 cs with
    | some i => .ok (.ready (.int i))
    | none => .error (.badInteger s)
  | .real =>
    match Real64.literal? cs with
    | some x => .ok (.ready (.real x))
    | none => .error (.badReal s)
  | .string =>
    match unquote? cs with
    | some bytes => .ok (.ready (.string bytes))
    | none => .error (.badString s)
  | .field | .type => .ok (.ready (.token s))

/-- Reads what stands behind a mnemonic, which may be nothing. -/
def readOperandOrNothing (kind : OperandKind) (cs : List Char) :
    Except OperandFault DraftOperand :=
  if cs.isEmpty then
    if kind = .nothing then .ok (.ready .nothing) else .error .missing
  else readOperand kind cs

/-! ## Drafts -/

/-- An instruction whose branches name labels, and its line. -/
structure Draft where
  line : Nat
  offset : Int
  opcode : Opcode
  operand : DraftOperand
  point : Option SourcePoint

/-- The drafts read so far, the source place that waits for its
instruction, and the offset of an instruction without a label. -/
structure Progress where
  drafts : List Draft := []
  point : Option SourcePoint := none
  nextOffset : Int := 0

/-- The offset of an instruction with the given label. -/
def offsetFor (next : Int) : Option (List Char) → Except LineFault Int
  | none => .ok next
  | some label =>
    match offset? (trim label) with
    | some offset => .ok offset
    | none => .error (.badLabel (String.ofList label))

/-- The mnemonic in front of the first space, and the operand. -/
def splitMnemonic (cs : List Char) : List Char × List Char :=
  match cut? [' '] cs with
  | some (mnemonic, operand) => (mnemonic, trim operand)
  | none => (cs, [])

/-- Reads the line of an instruction. -/
def readInstruction (p : Progress) (number : Nat) (line : List Char) :
    Except LineFault Progress := do
  let (label, rest) := splitLabel line
  let offset ← offsetFor p.nextOffset label
  if p.drafts.any (·.offset == offset) then throw (.duplicateLabel offset)
  let (mnemonic, operand) := splitMnemonic rest
  let mnemonic := String.ofList mnemonic
  match Opcode.ofName? mnemonic with
  | none => throw (.unknownOpcode mnemonic)
  | some opcode =>
    let operand ← (readOperandOrNothing opcode.operand operand).mapError (.operand mnemonic)
    return { drafts := p.drafts ++ [⟨number, offset, opcode, operand, p.point⟩]
             point := none
             nextOffset := offset + 1 }

/-- Reads one line. -/
def readLine (p : Progress) (number : Nat) (raw : List Char) : Except LineFault Progress :=
  let line := trim (stripComment false raw)
  if line.isEmpty then .ok p
  else
    match after? ".line".toList line with
    | some rest => (readPoint rest).map fun point => { p with point := some point }
    | none => readInstruction p number line

/-- Reads lines, of which the first has the given number. -/
def readLines (p : Progress) (number : Nat) : List (List Char) → Except ListingError Progress
  | [] => .ok p
  | raw :: lines =>
    match readLine p number raw with
    | .ok p => readLines p (number + 1) lines
    | .error fault => .error ⟨number, fault⟩

/-! ## Labels -/

/-- The position of the instruction that a label names: by its offset,
or by its wording if it names none of 32 bits. -/
def position? (drafts : List Draft) (label : List Char) : Option Nat :=
  match offset? label with
  | some offset => drafts.findIdx? (·.offset == offset)
  | none => drafts.findIdx? fun d => labelOf d.offset == String.ofList label

/-- The position of the instruction that a label names, or the fault
that there is none. -/
def resolve (drafts : List Draft) (label : List Char) : Except LineFault Nat :=
  match position? drafts label with
  | some position => .ok position
  | none => .error (.undefinedLabel (String.ofList label))

/-- The operand with positions for labels. -/
def resolveOperand (drafts : List Draft) : DraftOperand → Except LineFault Operand
  | .ready operand => .ok operand
  | .branch label => (resolve drafts label).map .target
  | .switch labels => (labels.mapM (resolve drafts)).map .table

/-- The instruction of a draft. -/
def resolveDraft (drafts : List Draft) (d : Draft) : Except ListingError Instruction :=
  match resolveOperand drafts d.operand with
  | .ok operand => .ok { d with operand }
  | .error fault => .error ⟨d.line, fault⟩

end Listing

/-- Reads a listing. -/
def Body.read (source : String) : Except ListingError Body := do
  let p ← Listing.readLines {} 1 (Text.splitOn '\n' source.toList)
  p.drafts.mapM (Listing.resolveDraft p.drafts)

end SmellCheck
