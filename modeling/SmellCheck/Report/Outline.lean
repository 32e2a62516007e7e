import SmellCheck.Text.Columns
/-!
# Outlines

An outline is a tree of labels that is drawn with lines from each branch
to what is below it. The last item of the uppermost level has a rounded
corner.
-/

namespace SmellCheck

/-- An item of an outline. -/
inductive Outline where
  | leaf (label : String)
  | branch (label : String) (items : List Outline)

namespace Outline

/-- The label of an item. -/
def label : Outline → String
  | leaf label => label
  | branch label _ => label

/-- What is below an item. -/
def items : Outline → List Outline
  | leaf _ => []
  | branch _ items => items

mutual

/-- Puts an item behind others. A branch without a label becomes part of
the item in front of it, if there is one. -/
def append (before : List Outline) : Outline → List Outline
  | leaf label => before ++ [leaf label]
  | branch label items =>
    if label ≠ "" then before ++ [branch label items]
    else
      match before.getLast? with
      | none => [branch label items]
      | some (leaf other) => before.dropLast ++ [branch other items]
      | some (branch other standing) =>
        before.dropLast ++ [branch other (appendAll standing items)]

/-- Puts items behind others, one after the other. -/
def appendAll (before : List Outline) : List Outline → List Outline
  | [] => before
  | item :: items => appendAll (append before item) items

end

/-- The items in sequence. -/
def ofItems (items : List Outline) : List Outline :=
  appendAll [] items

/-! ## Drawing -/

/-- What stands in front of a label. -/
def corner (rounded last : Bool) : String :=
  if !last then "├──" else if rounded then "╰──" else "└──"

/-- What stands in front of everything below a label. -/
def stem (last : Bool) : String :=
  if last then "   " else "│  "

/-- The lines of a label. -/
def labelLines (label : String) : List String :=
  Text.evenLines (Text.lines (Text.expandTabs label))

/-- The lines of a label behind its corner. -/
def drawLabel (indent : String) (rounded last : Bool) (label : String) : List String :=
  match labelLines label with
  | [] => []
  | first :: others =>
    (indent ++ corner rounded last ++ first) :: others.map (indent ++ stem last ++ ·)

mutual

/-- The lines of an item. -/
def draw (indent : String) (rounded last : Bool) : Outline → List String
  | leaf label => drawLabel indent rounded last label
  | branch label items =>
    drawLabel indent rounded last label ++ drawItems (indent ++ stem last) false items

/-- The lines of items. -/
def drawItems (indent : String) (rounded : Bool) : List Outline → List String
  | [] => []
  | item :: items =>
    draw indent rounded items.isEmpty item ++ drawItems indent rounded items

end

/-- The text of an outline below a label. An empty label takes no line. -/
def text (label : String) (items : List Outline) : String :=
  let head := if label = "" then [] else [Text.expandTabs label]
  "\n".intercalate (head ++ drawItems "" true items)

end Outline

end SmellCheck
