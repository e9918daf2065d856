import RehashReport.Number.Arithmetic

/-!
# Decimal texts of numbers

Two ways to write a floating-point number in decimal. `shortest` chooses the fewest digits that
read back as the same number, and of those the nearest; `plain` and `listed` lay them out. `fixed`
writes a given number of places, rounding the exact value with ties to even.
-/

namespace RehashReport

/-- The positive number `digits * 10 ^ exponent`. -/
structure Decimal where
  digits : Nat
  exponent : Int
deriving DecidableEq, Repr

namespace Decimal

/-- The number that a decimal stands for. -/
def value (d : Decimal) : Rat := d.digits * (10 : Rat) ^ d.exponent

/-- Drops trailing zeros from the digits; `fuel` bounds how many. -/
def stripZeros : Nat → Decimal → Decimal
  | 0, d => d
  | fuel + 1, d =>
    if d.digits ≠ 0 ∧ d.digits % 10 = 0 then stripZeros fuel ⟨d.digits / 10, d.exponent + 1⟩ else d

/-- Whether a number rounds to the magnitude with a code: it lies between the midpoints to the
neighbours, and a midpoint itself belongs to the even code. -/
def roundsTo (code : Nat) (q : Rat) : Bool :=
  let low := (Binary64.magnitude (code - 1) + Binary64.magnitude code) / 2
  let high := (Binary64.magnitude code + Binary64.magnitude (code + 1)) / 2
  if code % 2 = 0 then low ≤ q && q ≤ high else low < q && q < high

/-- The better of the two neighbours of `v` among the multiples of `10 ^ exponent`, if one of them
rounds to the magnitude with the code. Of two equally near ones the greater is better. -/
def neighbour? (code : Nat) (v : Rat) (exponent : Int) : Option Decimal :=
  let below : Decimal := ⟨(v / (10 : Rat) ^ exponent).floor.toNat, exponent⟩
  let above : Decimal := ⟨below.digits + 1, exponent⟩
  match roundsTo code below.value, roundsTo code above.value with
  | true, true => some (if v - below.value < above.value - v then below else above)
  | true, false => some below
  | false, true => some above
  | false, false => none

/-- The fewest digits, at least `count` of them and at most `count + fuel`, that round to the
magnitude with the code; without success all digits that were tried. -/
def search (code : Nat) (v : Rat) (magnitude : Int) : Nat → Nat → Decimal
  | 0, count =>
    let exponent := magnitude - (count : Int) + 1
    ⟨(v / (10 : Rat) ^ exponent).floor.toNat, exponent⟩
  | fuel + 1, count =>
    match neighbour? code v (magnitude - (count : Int) + 1) with
    | some d => d
    | none => search code v magnitude fuel (count + 1)

/-- The shortest decimal that rounds to the magnitude with a code other than zero. Seventeen digits
are always enough. -/
def shortest (code : Nat) : Decimal :=
  let v := Binary64.magnitude code
  stripZeros 17 (search code v (Rounding.floorLog10 v) 17 1)

/-- So many zeros. -/
def zeros (n : Nat) : String := String.ofList (List.replicate n '0')

/-- The digits of a decimal with the point in its place, and no exponent. -/
def positional (d : Decimal) : String :=
  let digits := d.digits.repr
  if 0 ≤ d.exponent then digits ++ zeros d.exponent.toNat
  else
    let places := (-d.exponent).toNat
    if digits.length ≤ places then "0." ++ zeros (places - digits.length) ++ digits
    else
      let cs := digits.toList
      let whole := cs.length - places
      String.ofList (cs.take whole) ++ "." ++ String.ofList (cs.drop whole)

/-- One digit, the point and the other digits, and a power of ten. -/
def scientific (d : Decimal) : String :=
  let cs := d.digits.repr.toList
  let exponent := d.exponent + cs.length - 1
  let mantissa :=
    if cs.length ≤ 1 then String.ofList cs
    else String.ofList (cs.take 1) ++ "." ++ String.ofList (cs.drop 1)
  mantissa ++ "e" ++ exponent.repr

end Decimal

namespace Binary64

/-- Writes a finite number by its magnitude, and the others by name; a NaN has no sign. -/
def withSign (write : Nat → String) : Binary64 → String
  | .finite negative code => (if negative then "-" else "") ++ write code
  | .infinite negative => if negative then "-inf" else "inf"
  | .nan => "NaN"

/-- The shortest digits, never with an exponent and without a point for an integer. -/
def plain : Binary64 → String :=
  withSign fun code => if code = 0 then "0" else (Decimal.shortest code).positional

/-- The shortest digits as lists of numbers show them: integers end in `.0`, and numbers below
`10 ^ -4` or from `10 ^ 16` on have an exponent. -/
def listed : Binary64 → String :=
  withSign fun code =>
    if code = 0 then "0.0"
    else
      let d := Decimal.shortest code
      let v := magnitude code
      if v < 1 / 10000 || 10000000000000000 ≤ v then d.scientific
      else if 0 ≤ d.exponent then d.positional ++ ".0"
      else d.positional

/-- The exact value, rounded to so many places; the sign stays also on a zero. -/
def fixed (places : Nat) : Binary64 → String :=
  withSign fun code =>
    let one := Nat.pow 10 places
    let units := (Rounding.nearestEven (magnitude code * one)).toNat
    if places = 0 then units.repr
    else
      let fraction := (units % one).repr
      (units / one).repr ++ "." ++ Decimal.zeros (places - fraction.length) ++ fraction

end Binary64

end RehashReport
