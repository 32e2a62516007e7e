import SmellCheck.Text.Columns
/-!
# Wrapping

A line that is too long is wrapped between words or behind a hyphen, and
within a word that is longer than a line. The blanks at which it is
wrapped are left out.
-/

namespace SmellCheck.Text

/-- A line while it is wrapped. -/
structure Wrapping where
  /-- The finished text. -/
  done : String := ""
  /-- The columns that are used in the last line of it. -/
  used : Nat := 0
  /-- The blanks behind it. -/
  gap : Nat := 0
  /-- The word behind the blanks, as far as it was read. -/
  word : String := ""
  /-- The columns of the word. -/
  wordColumns : Nat := 0

namespace Wrapping

/-- The blanks are finished. -/
def closeGap (w : Wrapping) : Wrapping :=
  { w with done := w.done ++ blanks w.gap, used := w.used + w.gap, gap := 0 }

/-- The word is finished, and the blanks in front of it. -/
def closeWord (w : Wrapping) : Wrapping :=
  if w.word = "" then w
  else
    let w := w.closeGap
    { w with
      done := w.done ++ w.word, used := w.used + w.wordColumns, word := "", wordColumns := 0 }

/-- The last line is finished, without the blanks behind it. -/
def breakLine (w : Wrapping) : Wrapping :=
  { w with done := w.done.push '\n', used := 0, gap := 0 }

/-- A blank is read. -/
def blank (w : Wrapping) : Wrapping :=
  let w := w.closeWord
  { w with gap := w.gap + 1 }

/-- A hyphen is read. It ends the word if there is room for it. -/
def hyphen (limit : Nat) (w : Wrapping) : Wrapping :=
  let w := w.closeGap
  if limit < w.used + w.wordColumns + 1 then
    { w with word := w.word.push '-', wordColumns := w.wordColumns + 1 }
  else
    let w := w.closeWord
    { w with done := w.done.push '-', used := w.used + 1 }

/-- A character of a word is read that takes the given columns. A word
that fills a line is finished before it. -/
def letter (limit : Nat) (w : Wrapping) (c : Char) (columns : Nat) : Wrapping :=
  let w := if limit < w.wordColumns + columns then w.closeWord else w
  let w := { w with word := w.word.push c, wordColumns := w.wordColumns + columns }
  if limit < w.used + w.wordColumns + w.gap then w.breakLine else w

/-- A character is read. -/
def step (limit : Nat) (w : Wrapping) (cell : Cell) : Wrapping :=
  if cell.role.columns = 0 then { w with word := w.word.push cell.char }
  else if cell.role = .shown ∧ cell.char = ' ' then w.blank
  else if cell.role = .shown ∧ cell.char = '-' then w.hyphen limit
  else w.letter limit cell.char cell.role.columns

/-- The text when all is read. Blanks at the end stay if there is room for
them. -/
def finish (limit : Nat) (w : Wrapping) : String :=
  let w :=
    if w.wordColumns = 0 then
      if limit < w.used + w.gap then { w with gap := 0 } else w.closeGap
    else w
  w.closeWord.done

end Wrapping

/-- The line as lines of at most the given columns. -/
def wrapLine (limit : Nat) (s : String) : List String :=
  lines (((cells s).foldl (Wrapping.step limit) {}).finish limit)

end SmellCheck.Text
