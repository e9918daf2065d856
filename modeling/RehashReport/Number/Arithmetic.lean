import RehashReport.Number.Binary64

/-!
# Arithmetic on binary floating-point numbers

Each operation takes the exact result of its operands and rounds it once. A result of zero gets the
sign that IEEE 754 prescribes, and so do infinities and NaNs. Comparisons are by value: the two
zeros are equal, and a NaN is in no order with anything.
-/

namespace RehashReport.Binary64

/-- The number with its sign changed. -/
def neg : Binary64 → Binary64
  | .finite negative code => .finite (!negative) code
  | .infinite negative => .infinite (!negative)
  | .nan => .nan

/-- The number without its sign. -/
def abs : Binary64 → Binary64
  | .finite _ code => .finite false code
  | .infinite _ => .infinite false
  | .nan => .nan

/-- The sum. A sum that vanishes is negative only if both terms are. -/
def add : Binary64 → Binary64 → Binary64
  | .nan, _ => .nan
  | _, .nan => .nan
  | .infinite a, .infinite b => if a = b then .infinite a else .nan
  | .infinite a, .finite _ _ => .infinite a
  | .finite _ _, .infinite b => .infinite b
  | .finite a m, .finite b n => round (a && b) (signed a (magnitude m) + signed b (magnitude n))

/-- The difference. -/
def sub (x y : Binary64) : Binary64 := add x (neg y)

/-- The product. -/
def mul : Binary64 → Binary64 → Binary64
  | .nan, _ => .nan
  | _, .nan => .nan
  | .infinite a, .infinite b => .infinite (a != b)
  | .infinite a, .finite b n => if n.val = 0 then .nan else .infinite (a != b)
  | .finite a m, .infinite b => if m.val = 0 then .nan else .infinite (a != b)
  | .finite a m, .finite b n =>
    round (a != b) (signed a (magnitude m) * signed b (magnitude n))

/-- The quotient. -/
def div : Binary64 → Binary64 → Binary64
  | .nan, _ => .nan
  | _, .nan => .nan
  | .infinite _, .infinite _ => .nan
  | .infinite a, .finite b _ => .infinite (a != b)
  | .finite a _, .infinite b => ofCode (a != b) 0
  | .finite a m, .finite b n =>
    if n.val = 0 then if m.val = 0 then .nan else .infinite (a != b)
    else round (a != b) (signed a (magnitude m) / signed b (magnitude n))

instance : Neg Binary64 := ⟨neg⟩
instance : Add Binary64 := ⟨add⟩
instance : Sub Binary64 := ⟨sub⟩
instance : Mul Binary64 := ⟨mul⟩
instance : Div Binary64 := ⟨div⟩

/-! ## Order -/

/-- Whether the first number is less than the second. -/
def blt : Binary64 → Binary64 → Bool
  | .nan, _ => false
  | _, .nan => false
  | .infinite a, .infinite b => a && !b
  | .infinite a, .finite _ _ => a
  | .finite _ _, .infinite b => !b
  | .finite a m, .finite b n => signed a (magnitude m) < signed b (magnitude n)

/-- Whether the first number is at most the second. -/
def ble : Binary64 → Binary64 → Bool
  | .nan, _ => false
  | _, .nan => false
  | .infinite a, .infinite b => a || !b
  | .infinite a, .finite _ _ => a
  | .finite _ _, .infinite b => !b
  | .finite a m, .finite b n => signed a (magnitude m) ≤ signed b (magnitude n)

instance : LT Binary64 := ⟨fun x y => blt x y = true⟩
instance : LE Binary64 := ⟨fun x y => ble x y = true⟩

instance (x y : Binary64) : Decidable (x < y) := inferInstanceAs (Decidable (blt x y = true))
instance (x y : Binary64) : Decidable (x ≤ y) := inferInstanceAs (Decidable (ble x y = true))

/-- The greater of two numbers; a NaN gives way to the other operand. -/
def maximum (x y : Binary64) : Binary64 :=
  match x, y with
  | .nan, y => y
  | x, .nan => x
  | x, y => if x < y then y else x

/-- The nearest number within two bounds; a NaN stays one. -/
def clamp (x low high : Binary64) : Binary64 :=
  if x < low then low else if high < x then high else x

/-! ## Integers -/

/-- Applies a rounding to an integer; a result of zero keeps the sign of the operand. -/
def mapInteger (f : Rat → Int) : Binary64 → Binary64
  | .finite negative code => round negative (f (signed negative (magnitude code)))
  | x => x

/-- The largest integer that is at most the number. -/
def floor (x : Binary64) : Binary64 := x.mapInteger Rat.floor

/-- The smallest integer that is at least the number. -/
def ceil (x : Binary64) : Binary64 := x.mapInteger Rat.ceil

/-- The nearest integer; halves go away from zero. -/
def nearest (x : Binary64) : Binary64 := x.mapInteger Rounding.nearestAway

/-- The integer within two bounds that is nearest to the number without its fraction; zero for a
NaN. -/
def toIntWithin (low high : Int) : Binary64 → Int
  | .nan => 0
  | .infinite negative => if negative then low else high
  | .finite negative code =>
    max low (min high (Rounding.truncate (signed negative (magnitude code))))

/-- As a signed integer of 32 bits. -/
def toInt32 (x : Binary64) : Int := x.toIntWithin (-0x80000000) 0x7FFFFFFF

/-- As a signed integer of 64 bits. -/
def toInt64 (x : Binary64) : Int := x.toIntWithin (-0x8000000000000000) 0x7FFFFFFFFFFFFFFF

/-- As an unsigned integer of 64 bits. -/
def toNat64 (x : Binary64) : Nat := (x.toIntWithin 0 0xFFFFFFFFFFFFFFFF).toNat

end RehashReport.Binary64
