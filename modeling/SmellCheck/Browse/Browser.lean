import SmellCheck.Browse.Viewport
import SmellCheck.Report.Text
/-!
# Browsing reports

A browser shows the text of a report in a viewport. Keys scroll, jump
from violation to violation, hide the clean tests, and show more help.
-/

namespace SmellCheck

/-- A browser of a report. -/
structure Browser where
  report : Report
  /-- The window; there is none before its size is known. -/
  viewport : Option Viewport
  hideClean : Bool
  fullHelp : Bool
  deriving DecidableEq

namespace Browser

/-! ## Content -/

/-- The heading of a report. -/
def title (r : Report) : String :=
  "testsmell: " ++ Text.decimal r.summary.totalTests ++ " test(s), "
    ++ Text.decimal r.summary.totalViolations ++ " violation(s)"

/-- The text that is browsed. -/
def contentOf (r : Report) (hideClean : Bool) : String :=
  let heading := title r
  heading ++ "\n" ++ Text.blanks (Text.columns heading) ++ "\n\n" ++
    match r.text ⟨true, hideClean⟩ with
    | .ok text => text
    | .error e => "cannot render report: " ++ Report.treeErrorText e ++ "\n"

/-- The text that the browser shows. -/
def content (b : Browser) : String :=
  contentOf b.report b.hideClean

/-- The lines that the browser shows. -/
def lines (b : Browser) : List String :=
  Text.lines b.content

/-- The line is that of a violation: it holds the name of a rule as a
word. -/
def isMarked (line : String) : Bool :=
  Rule.all.any fun rule => Text.contains line.toList (" " ++ rule.name ++ " ").toList

/-- The numbers of the lines of violations. -/
def marks (b : Browser) : List Nat :=
  (b.lines.zipIdx.filter fun (line, _) => isMarked line).map (·.2)

/-- The first picture of a report. -/
def ofReport (r : Report) : Browser :=
  ⟨r, none, false, false⟩

/-! ## Moves -/

/-- The lines below the text. -/
def footerHeight : Int := 2

/-- The window has the given size. -/
def resize (b : Browser) (width height : Int) : Browser :=
  let height := Text.wrapWord (height - footerHeight)
  match b.viewport with
  | none =>
    let v : Viewport := { width, height }
    { b with viewport := some (v.setText b.content) }
  | some v => { b with viewport := some { v with width, height } }

/-- Jumps to the next violation below the first line that is shown, or to
the last one above it. -/
def jump (forward : Bool) (b : Browser) : Browser :=
  match b.viewport with
  | none => b
  | some v =>
    let mark? := if forward then b.marks.find? fun (mark : Nat) => v.top < mark
      else b.marks.reverse.find? fun (mark : Nat) => mark < v.top
    match mark? with
    | some mark => { b with viewport := some (v.goTo mark) }
    | none => b

/-- Hides the clean tests or shows them again. -/
def toggleClean (b : Browser) : Browser :=
  let b := { b with hideClean := !b.hideClean }
  { b with viewport := b.viewport.map (·.setText b.content) }

/-- The keys that end browsing. -/
def quitKeys : List String := ["q", "ctrl+c", "esc"]

/-- The key ends browsing. -/
def quits (key : String) : Bool :=
  quitKeys.contains key

/-- What a key means to the browser itself. -/
def act (b : Browser) (key : String) : Browser :=
  match key with
  | "?" => { b with fullHelp := !b.fullHelp }
  | "c" => b.toggleClean
  | "n" => b.jump true
  | "p" => b.jump false
  | _ => b

/-- A key is pressed. It goes to the browser and then to the viewport,
unless it ends browsing. -/
def press (b : Browser) (key : String) : Browser :=
  if quits key then b
  else
    let b := b.act key
    { b with viewport := b.viewport.map (·.press key) }

/-! ## Pictures -/

/-- The help of one line. -/
def shortHelp : String :=
  " • ".intercalate
    ["n next violation", "p previous violation", "c toggle clean tests", "q quit", "? help"]

/-- The columns of the full help: what the keys are and what they do. -/
def helpColumns : List (List (String × String)) :=
  [[("^/k", "up"), ("v/j", "down"), ("pgup", "page up"), ("pgdn", "page down")],
   [("n", "next violation"), ("p", "previous violation"), ("c", "toggle clean tests")],
   [("q", "quit"), ("?", "help")]]

/-- The lines of one column of the full help, of which there are as many
as the longest column has. -/
def helpColumn (count : Nat) (entries : List (String × String)) : List String :=
  let keys := Text.evenLines (entries.map (·.1))
  let texts := List.zipWith (fun key entry => key ++ " " ++ entry.2) keys entries
  Text.evenLines (texts ++ List.replicate (count - texts.length) "")

/-- The full help. -/
def fullHelpLines : List String :=
  let count := (helpColumns.map (·.length)).foldl max 0
  match helpColumns.map (helpColumn count) with
  | [] => []
  | first :: others =>
    others.foldl (List.zipWith fun before column => before ++ "    " ++ column) first

/-- The footer: how far the text has moved, the violations and the help. -/
def footer (b : Browser) (v : Viewport) : String :=
  let percent := Nat.repr v.percent
  " " ++ Text.blanks (3 - percent.length) ++ percent ++ "%  " ++ Nat.repr b.marks.length
    ++ " violation(s)  " ++ if b.fullHelp then "\n".intercalate fullHelpLines else shortHelp

/-- What the browser shows. -/
def picture (b : Browser) : String :=
  match b.viewport with
  | none => "Initializing..."
  | some v => "\n".intercalate (v.picture ++ [b.footer v])

end Browser

end SmellCheck
