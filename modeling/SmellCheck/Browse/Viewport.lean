import SmellCheck.Real64.Basic
import SmellCheck.Text.Numeral
import SmellCheck.Text.Wrap
/-!
# Viewports

A viewport shows some of the lines of a text. It has a size and an
offset in both directions. Moves are clamped to the text, and a change of
the size does not move the viewport. Sizes are signed words of 64 bits,
and sums of them wrap around.
-/

namespace SmellCheck

/-- A window on lines. -/
structure Viewport where
  width : Int := 0
  height : Int := 0
  lines : List String := []
  /-- The first line that is shown. -/
  top : Int := 0
  /-- The first column that is shown. -/
  left : Int := 0
  deriving DecidableEq

namespace Viewport

/-- The number between two bounds that is nearest to the given one. -/
def clamp (low high i : Int) : Int :=
  max low (min high i)

/-- The lowest place for the first line. -/
def maxTop (v : Viewport) : Int :=
  max 0 (Text.wrapWord (v.lines.length - v.height))

/-- Shows the given line first, as far as the text goes. -/
def goTo (v : Viewport) (line : Int) : Viewport :=
  { v with top := clamp 0 v.maxTop line }

/-- Moves down, unless the end is shown. -/
def down (v : Viewport) (n : Int) : Viewport :=
  if v.maxTop ≤ v.top ∨ n = 0 ∨ v.lines.isEmpty then v else v.goTo (Text.wrapWord (v.top + n))

/-- Moves up, unless the beginning is shown. -/
def up (v : Viewport) (n : Int) : Viewport :=
  if v.top ≤ 0 ∨ n = 0 ∨ v.lines.isEmpty then v else v.goTo (Text.wrapWord (v.top - n))

/-- Moves to the right, or to the left by a negative number, as far as the
longest line goes. -/
def shift (v : Viewport) (n : Int) : Viewport :=
  let maxLeft := max 0 (Text.wrapWord (Text.widest v.lines - v.width))
  { v with left := clamp 0 maxLeft (Text.wrapWord (v.left + n)) }

/-- Shows another text. The viewport moves only if it is beyond its
lines. -/
def setText (v : Viewport) (text : String) : Viewport :=
  let lines := Text.lines (String.ofList (Text.plainNewlines text.toList))
  let v := { v with lines }
  if (lines.length : Int) - 1 < v.top then { v with top := v.maxTop } else v

/-- The columns that are moved by one step to the side. -/
def sideStep : Int := 6

/-- What a key does to the viewport. -/
def press (v : Viewport) (key : String) : Viewport :=
  match key with
  | "pgdown" | " " | "f" => v.down v.height
  | "pgup" | "b" => v.up v.height
  | "d" | "ctrl+d" => v.down (Int.tdiv v.height 2)
  | "u" | "ctrl+u" => v.up (Int.tdiv v.height 2)
  | "down" | "j" => v.down 1
  | "up" | "k" => v.up 1
  | "right" | "l" => v.shift sideStep
  | "left" | "h" => v.shift (-sideStep)
  | _ => v

/-! ## Pictures -/

/-- The lines that are shown, whole. -/
def shownLines (v : Viewport) : List String :=
  let first := max 0 v.top
  let behind := clamp first v.lines.length (Text.wrapWord (v.top + v.height))
  (v.lines.drop first.toNat).take (behind - first).toNat

/-- The part of a line that is shown if some line is too long. -/
def cutLine (v : Viewport) (line : String) : String :=
  let right := Text.wrapWord (v.left + v.width)
  if right ≤ v.left then ""
  else Text.dropColumns v.left.toNat (Text.takeColumns right.toNat line)

/-- The lines that are shown, as far as they are wide. They are whole if
the viewport has no width, or if all lines fit into it. -/
def shownParts (v : Viewport) : List String :=
  if v.width = 0 ∨ (v.left = 0 ∧ (Text.widest v.lines : Int) ≤ v.width) then v.shownLines
  else v.shownLines.map v.cutLine

/-- The lines filled to the size of the viewport, of which there is at
least one. What is too wide or too high is left out. -/
def fill (v : Viewport) (lines : List String) : List String :=
  let height := max 1 v.height.toNat
  let width := max v.width.toNat (Text.widest lines)
  let filled := (lines ++ List.replicate (height - lines.length) "").map (Text.padColumns width)
  (if 0 < v.width then filled.map (Text.takeColumns v.width.toNat) else filled).take height

/-- The picture of the viewport: the lines that are shown, and blank ones
up to the height, all as wide as the viewport. -/
def picture (v : Viewport) : List String :=
  let shown := v.shownParts
  v.fill (if 0 < v.width then shown.flatMap (Text.wrapLine v.width.toNat) else shown)

/-- The double-precision number nearest to a quotient, as a quotient. -/
def nearestQuotient (num den : Nat) : Nat × Nat :=
  match Real64.nearest? num den with
  | some (m, e) => (Real64.scaleUp m 2 e, Real64.scaleUp 1 2 (-e))
  | none => (num, den)

/-- How far the viewport has moved, in percent. The quotient, and then
its hundredfold, are rounded to double precision before the percentage is
rounded to a whole one. -/
def percent (v : Viewport) : Nat :=
  let hidden := (v.lines.length : Int) - v.height
  if hidden ≤ 0 ∨ hidden ≤ v.top then 100
  else
    let (num, den) := nearestQuotient v.top.toNat hidden.toNat
    let (num, den) := nearestQuotient (100 * num) den
    Real64.roundHalfEven num den

end Viewport

end SmellCheck
