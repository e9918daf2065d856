/-!
# Unsigned numerals

A count is written in decimal, or in hexadecimal after `0x`, with an optional `+` before its digits
and any number of leading zeros. `Numeral.read` reads such a numeral as a 64-bit number. Digits are
taken from the left, and the first thing that is wrong decides the fault. `Numeral.isReal` tells
real numbers from other texts.
-/

namespace RehashReport.Numeral

/-- Why a text is not the numeral of a 64-bit number. -/
inductive Fault
  /-- There is nothing to read. -/
  | empty
  /-- Something stands where a digit has to be. -/
  | invalidDigit
  /-- The digits so far already denote `2 ^ 64` or more. -/
  | tooLarge
deriving DecidableEq, Repr

/-- The wording of a fault. -/
def Fault.message : Fault → String
  | .empty => "cannot parse integer from empty string"
  | .invalidDigit => "invalid digit found in string"
  | .tooLarge => "number too large to fit in target type"

/-- The value of a digit in a base of at most sixteen; letters count in either case. -/
def digitValue (base : Nat) (c : Char) : Option Nat :=
  let value :=
    if '0' ≤ c && c ≤ '9' then some (c.toNat - '0'.toNat)
    else if 'a' ≤ c && c ≤ 'f' then some (c.toNat - 'a'.toNat + 10)
    else if 'A' ≤ c && c ≤ 'F' then some (c.toNat - 'A'.toNat + 10)
    else none
  value.filter (· < base)

/-- Reads digits from the left onto the value read so far. -/
def readDigits (base : Nat) : Nat → List Char → Except Fault Nat
  | value, [] => .ok value
  | value, c :: cs =>
    match digitValue base c with
    | none => .error .invalidDigit
    | some d =>
      if value * base + d < UInt64.size then readDigits base (value * base + d) cs
      else .error .tooLarge

/-- Reads an optional `+` and digits. A `+` alone is an invalid digit and not an empty text. -/
def readSigned (base : Nat) : List Char → Except Fault Nat
  | [] => .error .empty
  | '+' :: c :: cs => readDigits base 0 (c :: cs)
  | cs => readDigits base 0 cs

/-- Reads a numeral of either base. -/
def read : List Char → Except Fault UInt64
  | '0' :: 'x' :: cs => (readSigned 16 cs).map UInt64.ofNat
  | cs => (readSigned 10 cs).map UInt64.ofNat

/-! ## Real numbers -/

/-- Whether a character is a decimal digit. -/
def isDigit (c : Char) : Bool := '0' ≤ c && c ≤ '9'

/-- Whether there are digits and nothing else. -/
def areDigits (text : List Char) : Bool := !text.isEmpty && text.all isDigit

/-- Drops a sign. -/
def dropSign : List Char → List Char
  | '+' :: cs => cs
  | '-' :: cs => cs
  | cs => cs

/-- Whether a text is empty or a power of ten: the letter `e` in either case and a whole number. -/
def isExponent : List Char → Bool
  | [] => true
  | c :: cs => (c = 'e' || c = 'E') && areDigits (dropSign cs)

/-- Whether a text is a decimal number without a sign: digits, with a point before, among or after
them, and an exponent. -/
def isDecimal (text : List Char) : Bool :=
  let whole := text.takeWhile isDigit
  match text.dropWhile isDigit with
  | '.' :: cs =>
    (!whole.isEmpty || !(cs.takeWhile isDigit).isEmpty) && isExponent (cs.dropWhile isDigit)
  | rest => !whole.isEmpty && isExponent rest

/-- What is no number but may stand for one, in either case. -/
def realNames : List String := ["inf", "infinity", "nan"]

/-- Whether a text is a real number: a decimal number or a name, with an optional sign. -/
def isReal (text : List Char) : Bool :=
  let magnitude := dropSign text
  isDecimal magnitude || String.ofList (magnitude.map Char.toLower) ∈ realNames

end RehashReport.Numeral
