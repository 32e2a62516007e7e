/-!
# Cutting and splitting

Texts are cut at the first occurrence of a separator, split at every
occurrence of a character, and relieved of a given beginning or end.
-/

namespace SmellCheck.Text

/-- What follows `lead`, if the text begins with it. -/
def after? : (lead cs : List Char) → Option (List Char)
  | [], cs => some cs
  | _ :: _, [] => none
  | l :: lead, c :: cs => if l = c then after? lead cs else none

/-- The text begins with `lead`. -/
def startsWith (cs lead : List Char) : Bool :=
  (after? lead cs).isSome

/-- The text ends with `tail`. -/
def endsWith (cs tail : List Char) : Bool :=
  startsWith cs.reverse tail.reverse

/-- The text without `lead` at its beginning, if it stands there. -/
def dropLead (lead cs : List Char) : List Char :=
  (after? lead cs).getD cs

/-- The text without `tail` at its end, if it stands there. -/
def dropTail (tail cs : List Char) : List Char :=
  match after? tail.reverse cs.reverse with
  | some rest => rest.reverse
  | none => cs

/-- The parts before and after the first occurrence of the separator. -/
def cut? (sep : List Char) : List Char → Option (List Char × List Char)
  | [] => if sep.isEmpty then some ([], []) else none
  | c :: cs =>
    match after? sep (c :: cs) with
    | some rest => some ([], rest)
    | none => (cut? sep cs).map fun (before, rest) => (c :: before, rest)

/-- The text contains `part` somewhere. -/
def contains (cs part : List Char) : Bool :=
  (cut? part cs).isSome

/-- The parts of the text between the occurrences of a character. There
is one part more than there are occurrences. -/
def splitOn (sep : Char) : List Char → List (List Char)
  | [] => [[]]
  | c :: cs =>
    if c = sep then [] :: splitOn sep cs
    else
      match splitOn sep cs with
      | [] => [[c]]
      | part :: parts => (c :: part) :: parts

/-- The lines of a text: its parts between newlines. -/
def lines (s : String) : List String :=
  (splitOn '\n' s.toList).map String.ofList

end SmellCheck.Text
