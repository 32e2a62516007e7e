import SmellCheck.Real64.Basic
import SmellCheck.Text.Numeral
/-!
# Number literals

A literal is a decimal with an optional point and exponent, a
hexadecimal mantissa with a required power of two, an infinity or `nan`.
Digits may be grouped by underscores. A value too large for the format
is refused, one too small for it is zero.
-/

namespace SmellCheck.Real64

open Text

/-- The digits of a mantissa: their value, how many of them follow the
point, whether a point and whether a digit was seen. -/
structure Mantissa where
  value : Nat := 0
  places : Nat := 0
  point : Bool := false
  digits : Bool := false

/-- Reads digits, underscores and at most one point, and gives the rest. -/
def readMantissa (base : Nat) (m : Mantissa) : List Char → Mantissa × List Char
  | [] => (m, [])
  | c :: cs =>
    if c = '_' then readMantissa base m cs
    else if c = '.' ∧ ¬m.point then readMantissa base { m with point := true } cs
    else
      match digitIn? base c with
      | some d =>
        readMantissa base
          { m with value := m.value * base + d, digits := true,
                   places := if m.point then m.places + 1 else m.places } cs
      | none => (m, c :: cs)

/-- Reads the digits of an exponent. Further digits of an exponent of
five digits change nothing. -/
def readExponent (e : Nat) : List Char → Nat × List Char
  | [] => (e, [])
  | c :: cs =>
    if c = '_' then readExponent e cs
    else
      match digitIn? 10 c with
      | some d => readExponent (if e < 10000 then e * 10 + d else e) cs
      | none => (e, c :: cs)

/-- The exponent behind its mark, if a digit follows the mark and the
sign, and the rest. -/
def exponent? (cs : List Char) : Option (Int × List Char) :=
  let (negative, rest) := takeSign cs
  match rest with
  | c :: _ =>
    if c.isDigit then
      let (e, rest) := readExponent 0 rest
      some (withSign negative e, rest)
    else none
  | [] => none

/-- The number nearest to `m * 10 ^ e`. Exponents far outside the format
are decided without computing the power. -/
def ofDecimal? (negative : Bool) (m : Nat) (e : Int) : Option Real64 :=
  let size := ((Nat.repr m).length : Int) + e
  if m = 0 ∨ size < -400 then some (finite negative 0 minExponent)
  else if 400 < size then none
  else
    (nearest? (scaleUp m 10 e) (scaleUp 1 10 (-e))).map fun (m, e) => finite negative m e

/-- The number nearest to `m * 2 ^ e`. -/
def ofBinary? (negative : Bool) (m : Nat) (e : Int) : Option Real64 :=
  let size := (m.log2 : Int) + e
  if m = 0 ∨ size < -1200 then some (finite negative 0 minExponent)
  else if 1200 < size then none
  else
    (nearest? (scaleUp m 2 e) (scaleUp 1 2 (-e))).map fun (m, e) => finite negative m e

/-- A literal with a decimal mantissa. -/
def decimalLiteral? (negative : Bool) (cs : List Char) : Option Real64 :=
  let (m, rest) := readMantissa 10 {} cs
  if !m.digits then none
  else
    match rest with
    | [] => ofDecimal? negative m.value (-m.places)
    | c :: rest =>
      if sameLetter 'e' c then
        match exponent? rest with
        | some (e, []) => ofDecimal? negative m.value (e - m.places)
        | _ => none
      else none

/-- The part of a hexadecimal literal behind its mark. -/
def hexLiteral? (negative : Bool) (cs : List Char) : Option Real64 :=
  let (m, rest) := readMantissa 16 {} cs
  match rest with
  | c :: rest =>
    if m.digits && sameLetter 'p' c then
      match exponent? rest with
      | some (e, []) => ofBinary? negative m.value (e - 4 * m.places)
      | _ => none
    else none
  | [] => none

/-- A literal without its sign. -/
def unsignedLiteral? (negative : Bool) : List Char → Option Real64
  | '0' :: x :: c :: cs =>
    if sameLetter 'x' x then hexLiteral? negative (c :: cs)
    else decimalLiteral? negative ('0' :: x :: c :: cs)
  | cs => decimalLiteral? negative cs

/-- The names of an infinity, in any case. -/
def isInfinityName (cs : List Char) : Bool :=
  let name := String.ofList (cs.map Char.toLower)
  name == "inf" || name == "infinity"

/-- The number that a literal stands for. -/
def literal? (cs : List Char) : Option Real64 :=
  let (negative, rest) := takeSign cs
  if isInfinityName rest then some (infinite negative)
  else if String.ofList (cs.map Char.toLower) == "nan" then some nan
  else if underscoresFit cs then unsignedLiteral? negative rest
  else none

end SmellCheck.Real64
