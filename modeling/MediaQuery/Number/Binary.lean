/-!
# Binary numbers — decimals in 53 bits, and back

A decimal number that is no integer is held in 64 bits: a mantissa below `2 ^ 53` times a power of
two no less than `2 ^ -1074`. `Binary.nearest` finds the one nearest to a quotient of natural
numbers, and of two equally near ones the one with the even mantissa. All arithmetic is exact, and
rounded only where a number is made of its result.
-/

namespace MediaQuery

/-- The number `mantissa * 2 ^ exponent`. -/
structure Binary where
  mantissa : Nat
  exponent : Int
  deriving DecidableEq, Repr

/-- The quotient of `num` times a power of `base` by `den`, as a pair of natural numbers. -/
def scale (base num den : Nat) (power : Int) : Nat × Nat :=
  match power with
  | .ofNat n => (num * base.pow n, den)
  | .negSucc n => (num, den * base.pow (n + 1))

/-- The integer nearest to a quotient; a half goes to the even neighbour. -/
def roundHalfEven (num den : Nat) : Nat :=
  let low := num / den
  let twice := 2 * (num % den)
  if twice < den then low
  else if den < twice then low + 1
  else low + low % 2

namespace Binary

/-- The number as a quotient. -/
def quotient (b : Binary) : Nat × Nat :=
  scale 2 b.mantissa 1 b.exponent

/-- The least exponent. -/
def leastExponent : Int := -1074

/-- The number of bits of a full mantissa. -/
def mantissaBits : Nat := 53

/-- The exponent at which the quotient `num / den` has a full mantissa, or the least one. -/
def exponentFor (num den : Nat) : Int :=
  let estimate : Int := (num.log2 : Int) - (den.log2 : Int)
  let top := if (scale 2 num den (-estimate)).2 ≤ (scale 2 num den (-estimate)).1
    then estimate else estimate - 1
  max (top - (mantissaBits - 1)) leastExponent

/-- The least number of more bits than a mantissa has. -/
def fullMantissa : Nat :=
  Nat.pow 2 mantissaBits

/-- The number nearest to the quotient `num / den`. -/
def nearest (num den : Nat) : Binary :=
  if num = 0 then ⟨0, leastExponent⟩
  else
    let exponent := exponentFor num den
    let quotient := scale 2 num den (-exponent)
    let mantissa := roundHalfEven quotient.1 quotient.2
    if mantissa < fullMantissa then ⟨mantissa, exponent⟩
    else ⟨mantissa / 2, exponent + 1⟩

end Binary

/-! ## Scaling

A reader of decimals has the digits of a number as an integer and the place of its point as a power
of ten. Here both are made binary numbers, and one is multiplied or divided by the other. Each step
is exact and then rounded, so the result may be a neighbour of the number nearest to the decimal.
The powers of ten that are binary numbers end at `largestPower`; a smaller quotient is reached by
dividing more than once, and a larger product is none.
-/

namespace Binary

/-- The exponent of the greatest numbers. -/
def greatestExponent : Int := 971

/-- The number is not greater than the format allows. -/
def isFinite (b : Binary) : Bool :=
  b.exponent ≤ greatestExponent

/-- The number nearest to an integer. -/
def ofNat (n : Nat) : Binary :=
  nearest n 1

/-- The product of two numbers, rounded. -/
def mul (a b : Binary) : Binary :=
  nearest (a.quotient.1 * b.quotient.1) (a.quotient.2 * b.quotient.2)

/-- The quotient of two numbers, rounded. -/
def div (a b : Binary) : Binary :=
  nearest (a.quotient.1 * b.quotient.2) (a.quotient.2 * b.quotient.1)

/-- The exponent of the greatest power of ten that is a binary number. -/
def largestPower : Nat := 308

/-- The number nearest to a power of ten. -/
def powerOfTen (n : Nat) : Binary :=
  ofNat (Nat.pow 10 n)

/-- The number divided by a power of ten, in steps no larger than `largestPower`. -/
def divTens (b : Binary) (n : Nat) : Binary :=
  if n ≤ largestPower then b.div (powerOfTen n)
  else if b.mantissa = 0 then b
  else (b.div (powerOfTen largestPower)).divTens (n - largestPower)
termination_by n
decreasing_by
  unfold largestPower at *
  omega

/-- The number multiplied by a power of ten, if there is such a number. -/
def mulTens? (b : Binary) (n : Nat) : Option Binary :=
  if n ≤ largestPower then
    let product := b.mul (powerOfTen n)
    if product.isFinite then some product else none
  else if b.mantissa = 0 then some b
  else none

/-- The number scaled by a power of ten, if there is such a number. -/
def scaleTens? (b : Binary) : Int → Option Binary
  | .ofNat n => b.mulTens? n
  | .negSucc n => some (b.divTens (n + 1))

end Binary

/-! ## Shortest decimals

Every real number between the two midpoints around a binary number reads back as that number, and
the midpoints themselves do if its mantissa is even. Its shortest decimal is the number in that
interval with the fewest significant digits, and of several the nearest.
-/

/-- The number `digits * 10 ^ exponent`. -/
structure Decimal where
  digits : Nat
  exponent : Int
  deriving DecidableEq, Repr

namespace Binary

/-- Four times the lower midpoint, the number itself and the upper midpoint, in units of two to the
number's exponent. Below a power of two the next number is only half as far. -/
def quarters (b : Binary) : Nat × Nat × Nat :=
  let isPower := 2 * b.mantissa = fullMantissa ∧ leastExponent < b.exponent
  (4 * b.mantissa - (if isPower then 1 else 2), 4 * b.mantissa, 4 * b.mantissa + 2)

/-- A decimal in quarters of two to the number's exponent, as a quotient. -/
def inQuarters (b : Binary) (d : Decimal) : Nat × Nat :=
  let tens := scale 10 d.digits 1 d.exponent
  scale 2 (4 * tens.1) tens.2 (-b.exponent)

/-- The decimal reads back as the number. -/
def readsBack (b : Binary) (d : Decimal) : Bool :=
  let (low, _, high) := b.quarters
  let (num, den) := b.inQuarters d
  if b.mantissa % 2 = 0 then low * den ≤ num && num ≤ high * den
  else low * den < num && num < high * den

/-- How many digits stand before the point of the quotient `num / den`; none or fewer if it is less
than one tenth. -/
def wholeDigits (num den : Nat) : Int :=
  let estimate : Int := ((Nat.repr num).length : Int) - ((Nat.repr den).length : Int)
  let power := scale 10 num den (-estimate)
  if power.2 ≤ power.1 then estimate + 1 else estimate

/-- The neighbour of the number on the grid of decimals with the given exponent that reads back and
is nearest, if either does. -/
def onGrid? (b : Binary) (exponent : Int) : Option Decimal :=
  let (num, den) := scale 10 b.quotient.1 b.quotient.2 (-exponent)
  let low : Decimal := ⟨num / den, exponent⟩
  let high : Decimal := ⟨num / den + 1, exponent⟩
  let near := if roundHalfEven num den = num / den then low else high
  let far := if roundHalfEven num den = num / den then high else low
  if b.readsBack near then some near
  else if b.readsBack far then some far
  else none

/-- The shortest decimal that reads back as the number. The grids are tried from the coarsest, which
holds only the power of ten above the number; one of seventeen digits always suffices. -/
def shortest (b : Binary) : Decimal :=
  if b.mantissa = 0 then ⟨0, 0⟩
  else
    let whole := wholeDigits b.quotient.1 b.quotient.2
    let grid (count : Nat) := b.onGrid? (whole - count)
    ((List.range 18).findSome? grid).getD ⟨b.mantissa, b.exponent⟩

end Binary

/-- A power of ten as the end of a number's text, always with its sign. -/
def exponentText (power : Int) : String :=
  "e" ++ (if 0 ≤ power then "+" else "") ++ toString power

/-- The decimal as text: with a point and at least one digit on either side of it where its value
has from four zeros after the point to sixteen digits before it, and with an exponent otherwise. -/
def Decimal.text (d : Decimal) : String :=
  let digits := Nat.repr d.digits
  let zeros (n : Nat) := String.ofList (List.replicate n '0')
  let whole : Int := d.exponent + digits.length
  if d.digits = 0 then "0.0"
  else if 0 ≤ d.exponent ∧ whole ≤ 16 then digits ++ zeros d.exponent.toNat ++ ".0"
  else if 0 < whole ∧ whole ≤ 16 then
    String.ofList (digits.toList.take whole.toNat) ++ "." ++
      String.ofList (digits.toList.drop whole.toNat)
  else if -5 < whole ∧ whole ≤ 0 then "0." ++ zeros (-whole).toNat ++ digits
  else if digits.length = 1 then digits ++ exponentText (whole - 1)
  else
    String.ofList (digits.toList.take 1) ++ "." ++ String.ofList (digits.toList.drop 1) ++
      exponentText (whole - 1)

end MediaQuery
