import SmellCheck.Text.Numeral
/-!
# Moments in YAML

A scalar may stand for a moment: a date, or a date and a time of day,
which a letter divides if a time zone follows and spaces if none does.
-/

namespace SmellCheck.Yaml.Moment

/-- Reads a number of one or two digits. -/
def takeShort? : List Char → Option (Nat × List Char)
  | a :: b :: rest =>
    if a.isDigit then
      if b.isDigit then (Text.nat? 10 [a, b]).map (·, rest)
      else (Text.nat? 10 [a]).map (·, b :: rest)
    else none
  | [a] => if a.isDigit then (Text.nat? 10 [a]).map (·, []) else none
  | [] => none

/-- Reads a number of one or two digits within bounds. -/
def takeWithin? (least most : Nat) (cs : List Char) : Option (Nat × List Char) :=
  (takeShort? cs).filter fun (n, _) => least ≤ n && n ≤ most

/-- Reads a given character. -/
def takeChar? (c : Char) : List Char → Option (List Char)
  | x :: rest => if x = c then some rest else none
  | [] => none

/-- The year has a 29th of February. -/
def isLeap (year : Nat) : Bool :=
  year % 4 == 0 && (year % 100 != 0 || year % 400 == 0)

/-- The number of days of a month. -/
def daysIn (year month : Nat) : Nat :=
  if month = 2 then if isLeap year then 29 else 28
  else if [4, 6, 9, 11].contains month then 30
  else 31

/-- Reads a date; the year has four digits. -/
def takeDate? (cs : List Char) : Option (List Char) := do
  let digits := cs.takeWhile Char.isDigit
  guard (digits.length = 4)
  let year ← Text.nat? 10 digits
  let rest ← takeChar? '-' (cs.drop 4)
  let (month, rest) ← takeWithin? 1 12 rest
  let rest ← takeChar? '-' rest
  let (_, rest) ← takeWithin? 1 (daysIn year month) rest
  return rest

/-- Passes over the digits of a fraction, if there are any. -/
def skipFraction : List Char → List Char
  | c :: d :: rest =>
    if (c == '.' || c == ',') && d.isDigit then rest.dropWhile Char.isDigit else c :: d :: rest
  | cs => cs

/-- Reads a time of day. -/
def takeTime? (cs : List Char) : Option (List Char) := do
  let (_, rest) ← takeWithin? 0 23 cs
  let rest ← takeChar? ':' rest
  let (_, rest) ← takeWithin? 0 59 rest
  let rest ← takeChar? ':' rest
  let (_, rest) ← takeWithin? 0 59 rest
  return skipFraction rest

/-- The text is a time zone: the letter of universal time, or a difference
to it. -/
def isZone : List Char → Bool
  | ['Z'] => true
  | [sign, a, b, ':', c, d] =>
    (sign == '+' || sign == '-') && (Text.nat? 10 [a, b]).any (· ≤ 24)
      && (Text.nat? 10 [c, d]).any (· ≤ 60)
  | _ => false

/-- The text stands for a moment. -/
def isMoment (cs : List Char) : Bool :=
  match takeDate? cs with
  | none => false
  | some [] => true
  | some (c :: rest) =>
    if c == 'T' || c == 't' then (takeTime? rest).any isZone
    else if c == ' ' then (takeTime? (rest.dropWhile (· == ' '))).any List.isEmpty
    else false

end SmellCheck.Yaml.Moment
