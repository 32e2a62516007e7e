import SmellCheck.Real64.Basic
/-!
# The shortest decimal of a number

A number is written with the fewest digits that read back as the same
number, the nearest such digits, and of two equally near ones the even
one. The decimal point is placed positionally for leading digits from
`10 ^ -4` to `10 ^ 5`; beyond them an exponent with a sign and at least
two digits follows.
-/

namespace SmellCheck.Real64

/-- The decimal `digits * 10 ^ exponent`. -/
structure Decimal where
  digits : Nat
  exponent : Int
  deriving DecidableEq

/-- The order of `a * 10 ^ i` and `n * 2 ^ j`. -/
def compareScaled (a : Nat) (i : Int) (n : Nat) (j : Int) : Ordering :=
  compare (scaleUp (scaleUp a 10 i) 2 (-j)) (scaleUp (scaleUp n 2 j) 10 (-i))

/-- The decimal lies among the reals that round to `m * 2 ^ e`: no
further than half way to the neighbours, and half way only if the
mantissa is even. The neighbour below a power of two is half as far. -/
def readsBack (m : Nat) (e : Int) (d : Decimal) : Bool :=
  let low := if m = leastFull ∧ minExponent < e then 4 * m - 1 else 4 * m - 2
  let toLow := compareScaled d.digits d.exponent low (e - 2)
  let toHigh := compareScaled d.digits d.exponent (4 * m + 2) (e - 2)
  let even := m % 2 == 0
  (toLow == .gt || (even && toLow == .eq)) && (toHigh == .lt || (even && toHigh == .eq))

/-- The least exponent, from `k` on, whose power of ten exceeds
`m * 2 ^ e`, looked for in the given number of steps. -/
def magnitudeFrom (m : Nat) (e k : Int) : Nat → Int
  | 0 => k
  | steps + 1 =>
    if compareScaled 1 k m e == .gt then k else magnitudeFrom m e (k + 1) steps

/-- The least `k` with `m * 2 ^ e < 10 ^ k`, for a positive mantissa. -/
def magnitude (m : Nat) (e : Int) : Int :=
  let bits := (m.log2 : Int) + e
  magnitudeFrom m e (bits * 30103 / 100000 - 1) 5

/-- The nearest of the two neighbours of `m * 2 ^ e` on the grid of
`10 ^ g` that reads back, if one does. -/
def onGrid? (m : Nat) (e g : Int) : Option Decimal :=
  let num := scaleUp (scaleUp m 2 e) 10 (-g)
  let den := scaleUp (scaleUp 1 2 (-e)) 10 g
  let below : Decimal := ⟨num / den, g⟩
  let above : Decimal := ⟨num / den + 1, g⟩
  match readsBack m e below, readsBack m e above with
  | true, true => some ⟨roundHalfEven num den, g⟩
  | true, false => some below
  | false, true => some above
  | false, false => none

/-- The shortest decimal that reads back as `m * 2 ^ e`, for a positive
mantissa. Seventeen digits always suffice; the exact value stands behind
them. -/
def shortest (m : Nat) (e : Int) : Decimal :=
  let k := magnitude m e
  let grids := (List.range 17).map fun n => k - (n + 1 : Nat)
  (grids.findSome? (onGrid? m e)).getD
    ⟨scaleUp (scaleUp m 2 e) 5 (-e), -((-e).toNat : Int)⟩

/-- The digits of a decimal without the zeros at their end, and the
exponent of the leading digit. -/
def Decimal.leading (d : Decimal) : List Char × Int :=
  let digits := (Nat.repr d.digits).toList
  let significant := (digits.reverse.dropWhile (· == '0')).reverse
  (significant, d.exponent + digits.length - 1)

/-- The exponent in exponent form: a sign and at least two digits. -/
def exponentText (x : Int) : List Char :=
  let digits := (Nat.repr x.natAbs).toList
  (if x < 0 then '-' else '+') :: (if digits.length < 2 then '0' :: digits else digits)

/-- The text of the digits `ds` whose leading one stands for `10 ^ x`. -/
def layout (ds : List Char) (x : Int) : List Char :=
  if x < -4 ∨ 6 ≤ x then
    ds.take 1 ++ (if ds.length ≤ 1 then [] else '.' :: ds.drop 1) ++ 'e' :: exponentText x
  else if x < 0 then
    '0' :: '.' :: List.replicate (-x - 1).toNat '0' ++ ds
  else
    let whole := (x + 1).toNat
    if ds.length ≤ whole then ds ++ List.replicate (whole - ds.length) '0'
    else ds.take whole ++ '.' :: ds.drop whole

/-- The text of a number. -/
def text : Real64 → String
  | nan => "NaN"
  | infinite negative => if negative then "-Inf" else "+Inf"
  | finite negative m e =>
    let sign := if negative then ['-'] else []
    if m = 0 then String.ofList (sign ++ ['0'])
    else
      let (ds, x) := (shortest m e).leading
      String.ofList (sign ++ layout ds x)

end SmellCheck.Real64
