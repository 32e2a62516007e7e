import SmellCheck.Text.CharColumns
import SmellCheck.Text.Cluster
import SmellCheck.Text.Utf8
/-!
# Characters on a terminal

A terminal shows most characters and takes others for orders: an escape
character begins a sequence that is not shown. Characters beyond ASCII
are shown in clusters, and a cluster takes as many columns as its first
character alone, or two if a selector asks for the picture of it.
-/

namespace SmellCheck.Text

/-! ## Sequences -/

/-- What a terminal takes the next character for. -/
inductive TerminalMode where
  /-- A character to show. -/
  | plain
  /-- The character behind an escape character. -/
  | escape
  /-- A later one in a short sequence. -/
  | escapeRest
  /-- A parameter or the end of a control sequence. -/
  | control
  /-- A later one in a control sequence, behind the parameters. -/
  | controlRest
  /-- The beginning of an order to a device. -/
  | deviceStart
  /-- A parameter of an order to a device. -/
  | deviceParam
  /-- A later one in an order to a device, behind the parameters. -/
  | deviceRest
  /-- Text of an order to a device. -/
  | device
  /-- Text of an order to the system. -/
  | system
  /-- Text of a message. -/
  | message
  deriving DecidableEq

/-- What a character is on a terminal. -/
inductive CellRole where
  /-- Is shown in one column. -/
  | shown
  /-- Begins a cluster of so many columns. -/
  | cluster (columns : Nat)
  /-- Belongs to the cluster in front of it. -/
  | inCluster
  /-- Controls the terminal by itself. -/
  | control
  /-- Is part of a sequence. -/
  | code
  deriving DecidableEq

/-- The columns that a character adds. -/
def CellRole.columns : CellRole → Nat
  | shown => 1
  | cluster columns => columns
  | inCluster | control | code => 0

namespace TerminalMode

/-- The mode takes characters for text until it is ended. -/
def isText : TerminalMode → Bool
  | device | system | message => true
  | _ => false

/-- The mode takes characters beyond ASCII for text, byte by byte. -/
def takesBytes : TerminalMode → Bool
  | device | system => true
  | _ => false

/-- The mode behind a control character, escape apart, and its role. -/
def afterControl (m : TerminalMode) (n : Nat) : CellRole × TerminalMode :=
  if n = 0x18 ∨ n = 0x1A then (if m.isText then .code else .control, plain)
  else
    match m with
    | plain | escape | escapeRest | control | controlRest => (.control, m)
    | deviceStart => (.code, if 0x08 ≤ n ∧ n ≤ 0x0D then device else m)
    | system => (.code, if n = 0x07 then plain else m)
    | deviceParam | deviceRest | device | message => (.code, m)

/-- The mode behind an ASCII character that is no control character,
unless the mode is plain. -/
def afterGraphic (m : TerminalMode) (n : Nat) : TerminalMode :=
  match m with
  | plain => plain
  | escape =>
    if n = 0x7F then escape
    else if n < 0x30 then escapeRest
    else if n = 0x5B then control
    else if n = 0x5D then system
    else if n = 0x50 then deviceStart
    else if n = 0x58 ∨ n = 0x5E ∨ n = 0x5F then message
    else plain
  | escapeRest => if n < 0x30 ∨ n = 0x7F then m else plain
  | control =>
    if n = 0x7F then m
    else if n < 0x30 then controlRest
    else if n < 0x40 then m
    else plain
  | controlRest => if n < 0x30 ∨ n = 0x7F then m else plain
  | deviceStart | deviceParam =>
    if n = 0x7F then m
    else if n < 0x30 then deviceRest
    else if n < 0x40 then deviceParam
    else device
  | deviceRest => if n < 0x30 ∨ n = 0x7F then m else device
  | device | system | message => m

/-- The role of an ASCII character, and the mode behind it. -/
def afterAscii (m : TerminalMode) (n : Nat) : CellRole × TerminalMode :=
  if n = 0x1B then (.code, if m = deviceStart then device else escape)
  else if n < 0x20 then m.afterControl n
  else if m = plain then (if n = 0x7F then .control else .shown, plain)
  else (.code, m.afterGraphic n)

/-- The mode behind a byte beyond ASCII that does not begin a character. -/
def afterByte (m : TerminalMode) (b : UInt8) : TerminalMode :=
  if m.takesBytes && b ≠ 0x9C then m
  else
    match b with
    | 0x90 => deviceStart
    | 0x98 | 0x9E | 0x9F => message
    | 0x9B => control
    | 0x9D => system
    | _ => plain

end TerminalMode

/-! ## Cells -/

/-- A character and its role. -/
structure Cell where
  char : Char
  role : CellRole
  deriving DecidableEq

/-- What is known of the characters that were read. -/
structure CellState where
  mode : TerminalMode := .plain
  /-- The end of the cluster that the last character belongs to. -/
  cluster : Option ClusterEnd := none
  deriving DecidableEq

/-- The selector that asks for the picture of a character. -/
def pictureSelector : Char := Char.ofNat 0xFE0F

/-- The columns of a cluster, by its first two characters. -/
def clusterColumns (first : Char) (next : Option Char) : Nat :=
  if next = some pictureSelector then 2 else charColumns first

/-- The role of a character that belongs to no cluster in front of it, and
the state behind it. -/
def CellState.start (s : CellState) (c : Char) (next : Option Char) : CellRole × CellState :=
  if c.toNat < 0x80 then
    let (role, mode) := s.mode.afterAscii c.toNat
    (role, { mode })
  else if s.mode.takesBytes then
    (.code, { mode := (encodeUtf8 [c]).foldl TerminalMode.afterByte s.mode })
  else (.cluster (clusterColumns c next), { cluster := some (.of (.of c)) })

/-- The role of a character, and the state behind it. -/
def CellState.step (s : CellState) (c : Char) (next : Option Char) : CellRole × CellState :=
  match s.cluster with
  | some e =>
    let k := ClusterClass.of c
    if e.takes k then (.inCluster, { cluster := some (e.push k) }) else s.start c next
  | none => s.start c next

/-- Characters with their roles, behind others. -/
def cellsFrom (s : CellState) : List Char → List Cell
  | [] => []
  | c :: cs =>
    let (role, s) := s.step c cs.head?
    ⟨c, role⟩ :: cellsFrom s cs

/-- The characters of a line with their roles. -/
def cells (s : String) : List Cell :=
  cellsFrom {} s.toList

end SmellCheck.Text
