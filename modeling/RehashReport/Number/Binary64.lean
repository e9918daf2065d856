/-!
# Binary floating-point numbers of 64 bits

`Binary64` has the values of the IEEE 754 format of that name, with a single NaN. A finite number is
a sign and a *code*: the position of its magnitude among all magnitudes, counted from zero. Codes
are ordered as the magnitudes are, and they are the lower 63 bits of the interchange format, so
rounding a rational number is finding a code (`nearestCode`) and the first code that is too large
stands for infinity.
-/

namespace RehashReport.Rounding

/-!
## Rounding rational numbers

Integers next to a rational number, numbers of few digits next to an integer, and the place of a
positive number among the powers of a base. Everything here is exact; the number formats that round
are built on it.
-/

/-- The integer nearest to a number; of two that are equally near, the even one. -/
def nearestEven (q : Rat) : Int :=
  let below := q.floor
  let excess := q - below
  if excess < 1 / 2 then below
  else if 1 / 2 < excess then below + 1
  else if below % 2 = 0 then below else below + 1

/-- The integer nearest to a number; of two that are equally near, the one farther from zero. -/
def nearestAway (q : Rat) : Int :=
  if 0 ≤ q then (q + 1 / 2).floor else -(-q + 1 / 2).floor

/-- The number without its fraction. -/
def truncate (q : Rat) : Int :=
  if 0 ≤ q then q.floor else -(-q).floor

/-- The nearest number whose magnitude has at most so many significant binary digits; of two that
are equally near, the one with the even last digit. -/
def significant (digits : Nat) (n : Int) : Int :=
  let m := n.natAbs
  let unit := 1 <<< (m.log2 + 1 - digits)
  let below := m / unit
  let excess := m % unit * 2
  let nearest := if excess < unit || (excess = unit && below % 2 = 0) then below else below + 1
  n.sign * (nearest * unit : Nat)

/-- How many times ten can be multiplied by itself without exceeding a number. -/
def log10 (n : Nat) : Nat :=
  if n < 10 then 0 else log10 (n / 10) + 1

/-- The exponent of the largest power of a base that is at most `q`, for positive `q`, given the
same logarithm on natural numbers. Below one it is found from the reciprocal: a power is at least
`1 / q` just when it exceeds the last integer below `1 / q`. -/
def floorLog (log : Nat → Nat) (q : Rat) : Int :=
  if 1 ≤ q then (log q.floor.toNat : Int)
  else -((log ((1 / q).ceil.toNat - 1) : Int) + 1)

/-- The largest `e` with `2 ^ e ≤ q`. -/
def floorLog2 (q : Rat) : Int := floorLog Nat.log2 q

/-- The largest `e` with `10 ^ e ≤ q`. -/
def floorLog10 (q : Rat) : Int := floorLog log10 q

end RehashReport.Rounding

namespace RehashReport

namespace Binary64

/-- How many magnitudes share one binary exponent. -/
def binadeSize : Nat := 0x10000000000000

/-- Codes below this one are finite. -/
def codeLimit : Nat := 2047 * binadeSize

/-- The weight of the sign in the interchange format. -/
def signWeight : Nat := 0x8000000000000000

/-- The exponent of the unit in the last place of the smallest magnitudes. -/
def leastExponent : Int := -1074

end Binary64

/-- A number of the format, or what stands for one. -/
inductive Binary64
  | finite (negative : Bool) (code : Fin Binary64.codeLimit)
  | infinite (negative : Bool)
  | nan
deriving DecidableEq

namespace Binary64

/-- The magnitude with a code. Those of the first binade are its multiples of the smallest unit,
and each later binade has a unit of twice the size of the one before. -/
def magnitude (code : Nat) : Rat :=
  if code < binadeSize then code * (2 : Rat) ^ leastExponent
  else
    ((binadeSize + code % binadeSize : Nat) : Rat) *
      (2 : Rat) ^ (leastExponent + (code / binadeSize : Nat) - 1)

/-- The exponent of the unit in the last place around a positive number. -/
def unitExponent (q : Rat) : Int :=
  max leastExponent (Rounding.floorLog2 q - 52)

/-- The code whose magnitude is nearest to a number that is not negative; of two that are equally
near, the even one. It may be the limit or beyond, for numbers that are too large. -/
def nearestCode (q : Rat) : Nat :=
  if q = 0 then 0
  else
    let e := unitExponent q
    (e - leastExponent).toNat * binadeSize + (Rounding.nearestEven (q / (2 : Rat) ^ e)).toNat

/-- The number with a sign and a code; codes from the limit on are infinite. -/
def ofCode (negative : Bool) (code : Nat) : Binary64 :=
  if h : code < codeLimit then .finite negative ⟨code, h⟩ else .infinite negative

/-- A rational number, rounded to nearest with ties to even. A zero has no sign of its own and
takes the given one. -/
def round (zeroNegative : Bool) (q : Rat) : Binary64 :=
  if q < 0 then ofCode true (nearestCode (-q))
  else if q = 0 then ofCode zeroNegative 0
  else ofCode false (nearestCode q)

/-- A rational number, rounded. -/
def ofRat (q : Rat) : Binary64 := round false q

/-- A natural number, rounded. -/
def ofNat (n : Nat) : Binary64 := ofRat n

/-- A signed magnitude. -/
def signed (negative : Bool) (q : Rat) : Rat := if negative then -q else q

/-- The value of a finite number; zero for the others. -/
def toRat : Binary64 → Rat
  | .finite negative code => signed negative (magnitude code)
  | .infinite _ => 0
  | .nan => 0

/-- Whether the sign is a minus; a NaN counts as having none. -/
def isNegative : Binary64 → Bool
  | .finite negative _ => negative
  | .infinite negative => negative
  | .nan => false

/-- Whether it is a number at all. -/
def isFinite : Binary64 → Bool
  | .finite _ _ => true
  | _ => false

/-- Positive zero. -/
def zero : Binary64 := ofCode false 0

/-! ### The interchange format -/

/-- The number with a 64-bit pattern: the sign above, the code below. -/
def ofBits (bits : UInt64) : Binary64 :=
  let negative := signWeight ≤ bits.toNat
  let code := bits.toNat % signWeight
  if code ≤ codeLimit then ofCode negative code else .nan

/-- The bit pattern of a number. -/
def toBits : Binary64 → UInt64
  | .finite negative code => UInt64.ofNat ((if negative then signWeight else 0) + code)
  | .infinite negative => UInt64.ofNat ((if negative then signWeight else 0) + codeLimit)
  | .nan => UInt64.ofNat (codeLimit + binadeSize / 2)

end Binary64

end RehashReport
