/-!
# Integer numerals

Integers are read from digits in a base, with a sign and within the range
of a signed word, or from literals that name their own base and may
group digits by underscores. They are written in decimal, and in
hexadecimal with leading zeros up to a width that counts the sign.
-/

namespace SmellCheck.Text

/-- The value of a digit: `0` to `9`, then the letters in either case. -/
def digitValue? (c : Char) : Option Nat :=
  if '0' ≤ c ∧ c ≤ '9' then some (c.toNat - '0'.toNat)
  else if 'a' ≤ c ∧ c ≤ 'z' then some (c.toNat - 'a'.toNat + 10)
  else if 'A' ≤ c ∧ c ≤ 'Z' then some (c.toNat - 'A'.toNat + 10)
  else none

/-- The value of `c` as a digit of the given base. -/
def digitIn? (base : Nat) (c : Char) : Option Nat :=
  (digitValue? c).filter (· < base)

/-- The value of digits that follow digits of value `acc`. -/
def digitsFrom? (base acc : Nat) : List Char → Option Nat
  | [] => some acc
  | c :: cs => (digitIn? base c).bind fun d => digitsFrom? base (acc * base + d) cs

/-- The value of a text of one or more digits of the given base. -/
def nat? (base : Nat) (cs : List Char) : Option Nat :=
  if cs.isEmpty then none else digitsFrom? base 0 cs

/-- An optional sign, as whether it is a minus, and the rest of the text. -/
def takeSign : List Char → Bool × List Char
  | '+' :: cs => (false, cs)
  | '-' :: cs => (true, cs)
  | cs => (false, cs)

/-- The integer with the given sign and size. -/
def withSign (negative : Bool) (n : Nat) : Int :=
  if negative then -(n : Int) else n

/-- The integer fits a signed word of the given number of bits. -/
def fitsWord (bits : Nat) (i : Int) : Bool :=
  let half : Int := Nat.pow 2 (bits - 1)
  i < half && -half ≤ i

/-- An optionally signed integer in the given base that fits a signed
word. -/
def int? (base bits : Nat) (cs : List Char) : Option Int :=
  let (negative, digits) := takeSign cs
  ((nat? base digits).map (withSign negative)).filter (fitsWord bits)

/-- The integer that is left of another one in a signed word of 64 bits:
it differs from it by a multiple of 2^64. -/
def wrapWord (i : Int) : Int :=
  Int.bmod i 0x10000000000000000

/-! ## Literals -/

/-- Letters compare without regard to case. -/
def sameLetter (letter c : Char) : Bool :=
  c.toLower == letter

/-- What the scan for underscores saw last. -/
inductive LastSeen where
  | digit
  | underscore
  | other
  deriving DecidableEq

/-- The digits that may stand around an underscore. -/
def isGrouped (hex : Bool) (c : Char) : Bool :=
  c.isDigit || (hex && (digitIn? 16 c).isSome)

/-- Every underscore stands between two digits. -/
def underscoresFitFrom (hex : Bool) : LastSeen → List Char → Bool
  | last, [] => last != .underscore
  | last, c :: cs =>
    if isGrouped hex c then underscoresFitFrom hex .digit cs
    else if c = '_' then last == .digit && underscoresFitFrom hex .underscore cs
    else last != .underscore && underscoresFitFrom hex .other cs

/-- Every underscore of an unsigned literal stands between two digits or
between a base mark and a digit. -/
def underscoresFitUnsigned : List Char → Bool
  | '0' :: c :: cs =>
    if sameLetter 'x' c then underscoresFitFrom true .digit cs
    else if sameLetter 'b' c || sameLetter 'o' c then underscoresFitFrom false .digit cs
    else underscoresFitFrom false .other ('0' :: c :: cs)
  | cs => underscoresFitFrom false .other cs

/-- Every underscore of a literal stands between two digits or between a
base mark and a digit. -/
def underscoresFit (cs : List Char) : Bool :=
  underscoresFitUnsigned (takeSign cs).2

/-- The base that an unsigned literal names, and its digits. A base mark
without a digit after it is no base mark, and a leading zero alone stands
for octal. -/
def literalBase : List Char → Nat × List Char
  | ['0'] => (8, [])
  | '0' :: c :: d :: cs =>
    if sameLetter 'b' c then (2, d :: cs)
    else if sameLetter 'o' c then (8, d :: cs)
    else if sameLetter 'x' c then (16, d :: cs)
    else (8, c :: d :: cs)
  | '0' :: cs => (8, cs)
  | cs => (10, cs)

/-- An unsigned integer literal. -/
def natLiteral? (cs : List Char) : Option Nat :=
  if cs.isEmpty || !underscoresFitUnsigned cs then none
  else
    let (base, digits) := literalBase cs
    digitsFrom? base 0 (digits.filter (· != '_'))

/-- Digits that follow digits of value `acc` go beyond the limit before
anything that is neither a digit nor an underscore. -/
def digitsExceed (limit base acc : Nat) : List Char → Bool
  | [] => false
  | c :: cs =>
    if c = '_' then digitsExceed limit base acc cs
    else
      match digitIn? base c with
      | none => false
      | some d => limit < acc * base + d || digitsExceed limit base (acc * base + d) cs

/-- The text is an unsigned literal up to a digit with which it is too
large for an unsigned word of 64 bits. What follows is not looked at. -/
def literalExceeds (cs : List Char) : Bool :=
  let (base, digits) := literalBase cs
  digitsExceed 0xFFFFFFFFFFFFFFFF base 0 digits

/-- An integer literal that fits a signed word. -/
def intLiteral? (bits : Nat) (cs : List Char) : Option Int :=
  let (negative, rest) := takeSign cs
  ((natLiteral? rest).map (withSign negative)).filter (fitsWord bits)

/-! ## Writing -/

/-- The digit character of a value below sixteen. -/
def hexDigit (d : Nat) : Char :=
  if d < 10 then Char.ofNat ('0'.toNat + d) else Char.ofNat ('a'.toNat + (d - 10))

/-- The hexadecimal digits of a number, without leading zeros. -/
def hexDigits (n : Nat) : List Char :=
  if n < 16 then [hexDigit n] else hexDigits (n / 16) ++ [hexDigit (n % 16)]
termination_by n

/-- The digits with zeros in front of them up to the width. -/
def padZeros (width : Nat) (digits : List Char) : List Char :=
  List.replicate (width - digits.length) '0' ++ digits

/-- The lower-case hexadecimal form of an integer, filled with zeros to
the width. The sign of a negative integer takes one of the places. -/
def hexInt (width : Nat) (i : Int) : List Char :=
  if i < 0 then '-' :: padZeros (width - 1) (hexDigits i.natAbs)
  else padZeros width (hexDigits i.natAbs)

/-- The decimal form of an integer. -/
def decimal (i : Int) : String :=
  if i < 0 then "-" ++ Nat.repr i.natAbs else Nat.repr i.natAbs

end SmellCheck.Text
