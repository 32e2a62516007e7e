/-!
# Double-precision numbers

A number of the 64-bit binary format is a mantissa of at most 53 bits
times a power of two, an infinity, or not a number. `nearest` rounds a
quotient of naturals to the format, a half going to the even mantissa.
-/

namespace SmellCheck

/-- A number of the 64-bit binary format. A finite one is
`mantissa * 2 ^ exponent` with its sign. -/
inductive Real64 where
  | nan
  | infinite (negative : Bool)
  | finite (negative : Bool) (mantissa : Nat) (exponent : Int)
  deriving DecidableEq

namespace Real64

/-- The exponent of the smallest positive number. -/
def minExponent : Int := -1074

/-- The exponent of the largest finite number. -/
def maxExponent : Int := 971

/-- The least mantissa of 53 bits, `2 ^ 52`. -/
def leastFull : Nat := 0x10000000000000

/-- The number `n * base ^ e`, or `n` for a negative exponent. -/
def scaleUp (n base : Nat) (e : Int) : Nat :=
  n * Nat.pow base e.toNat

/-- A quotient rounded to a natural number, a half to the even one. -/
def roundHalfEven (num den : Nat) : Nat :=
  let q := num / den
  let r := num % den
  if 2 * r < den then q
  else if den < 2 * r then q + 1
  else if q % 2 = 0 then q else q + 1

/-- The quotient `num / den / 2 ^ e` as a numerator and a denominator. -/
def scaleDown (num den : Nat) (e : Int) : Nat × Nat :=
  (scaleUp num 2 (-e), scaleUp den 2 e)

/-- The exponent for which the quotient has a mantissa of 53 bits, or the
smallest one if it is too small for that. -/
def fitExponent (num den : Nat) : Int :=
  let e := (num.log2 : Int) - den.log2 - 52
  let (n, d) := scaleDown num den e
  max minExponent (if n < d * leastFull then e - 1 else e)

/-- The number of the format that is nearest to a quotient, as mantissa
and exponent; `none` if the quotient is too large for the format. -/
def nearest? (num den : Nat) : Option (Nat × Int) :=
  if num = 0 then some (0, minExponent)
  else
    let e := fitExponent num den
    let (n, d) := scaleDown num den e
    let m := roundHalfEven n d
    let (m, e) := if m = 2 * leastFull then (leastFull, e + 1) else (m, e)
    if maxExponent < e then none else some (m, e)

/-- The integer part, toward zero, of a finite number. -/
def truncate? : Real64 → Option Int
  | finite negative m e =>
    let n := scaleUp m 2 e / scaleUp 1 2 (-e)
    some (if negative then -(n : Int) else n)
  | _ => none

end Real64

end SmellCheck
