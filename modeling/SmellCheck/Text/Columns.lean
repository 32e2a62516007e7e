import SmellCheck.Text.Cell
import SmellCheck.Text.Split
/-!
# Columns

How many columns a line takes on a terminal, lines that are cut to
columns or filled up to them, and texts whose lines are equally long.
-/

namespace SmellCheck.Text

/-- The columns of a line. -/
def columns (s : String) : Nat :=
  (cells s).foldr (fun cell n => cell.role.columns + n) 0

/-! ## Cutting -/

/-- The characters that fit into a number of columns, of which some are
used. Sequences stay also behind the last column. -/
def takeCells (limit used : Nat) (full : Bool) : List Cell → List Char
  | [] => []
  | cell :: rest =>
    if cell.role = .code then cell.char :: takeCells limit used full rest
    else
      let used := used + cell.role.columns
      if full ∨ limit < used then takeCells limit used true rest
      else cell.char :: takeCells limit used false rest

/-- The line as far as it fits into the given columns. -/
def takeColumns (limit : Nat) (s : String) : String :=
  String.ofList (takeCells limit 0 false (cells s))

/-- The characters behind a number of columns, of which some are used. A
cluster that lies on both sides stays, and so do sequences. -/
def dropCells (limit used : Nat) : List Cell → List Char
  | [] => []
  | cell :: rest =>
    let used := used + cell.role.columns
    if limit < used then (cell :: rest).map Cell.char
    else if cell.role = .code then cell.char :: dropCells limit used rest
    else dropCells limit used rest

/-- The line without the given columns at its beginning. -/
def dropColumns (limit : Nat) (s : String) : String :=
  if limit = 0 then s else String.ofList (dropCells limit 0 (cells s))

/-! ## Filling -/

/-- So many blanks. -/
def blanks (n : Nat) : String :=
  String.ofList (List.replicate n ' ')

/-- The line with blanks behind it up to the given number of columns. -/
def padColumns (width : Nat) (s : String) : String :=
  s ++ blanks (width - columns s)

/-- The columns of the longest line. -/
def widest (lines : List String) : Nat :=
  (lines.map columns).foldl max 0

/-- The lines with blanks behind them up to the columns of the longest
one. -/
def evenLines (lines : List String) : List String :=
  lines.map (padColumns (widest lines))

/-- The text with four blanks for each tab. -/
def expandTabs (s : String) : String :=
  String.ofList (s.toList.flatMap fun c => if c = '\t' then [' ', ' ', ' ', ' '] else [c])

/-- The text with newlines for pairs of a carriage return and a newline. -/
def plainNewlines : List Char → List Char
  | '\r' :: '\n' :: cs => '\n' :: plainNewlines cs
  | c :: cs => c :: plainNewlines cs
  | [] => []

/-- The text as a block: without tabs, and with lines of equal length. -/
def block (s : String) : String :=
  let lines := lines (String.ofList (plainNewlines (expandTabs s).toList))
  "\n".intercalate (evenLines lines)

end SmellCheck.Text
