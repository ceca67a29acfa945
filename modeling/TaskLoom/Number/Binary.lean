import TaskLoom.Number.Word

/-!
# Binary fractions of bounded precision

A number is a sign, a mantissa and a power of two.  Every operation computes the exact value and
rounds it once to the wanted number of mantissa bits, a half going to the even neighbour.
-/

namespace TaskLoom

/-- The number `± mantissa · 2 ^ exponent`. -/
structure Binary where
  negative : Bool
  mantissa : Nat
  exponent : Int
  deriving DecidableEq, Repr

namespace Binary

/-- The quotient `num / den` rounded to an integer, a half going to the even neighbour. -/
def roundQuotient (num den : Nat) : Nat :=
  let q := num / den
  let r := num % den
  if 2 * r < den then q
  else if den < 2 * r then q + 1
  else if q % 2 = 0 then q else q + 1

/-- The quotient `num / (den · 2 ^ e)`, as a quotient of integers. -/
def scaleDown (num den : Nat) (e : Int) : Nat × Nat :=
  if 0 ≤ e then (num, den * Nat.pow 2 e.toNat) else (num * Nat.pow 2 (-e).toNat, den)

/-- The quotient `num / den` as a mantissa of at most `bits` bits and an exponent that is not
below `least`. -/
def ofQuotient (bits : Nat) (least : Option Int) (negative : Bool) (num den : Nat) : Binary :=
  if num = 0 then ⟨negative, 0, 0⟩
  else
    let guess : Int := (bitLength num : Int) - bitLength den - bits
    let (n, d) := scaleDown num den guess
    let tight := if n / d < Nat.pow 2 bits then guess else guess + 1
    let e := match least with
      | some l => max tight l
      | none => tight
    let (n, d) := scaleDown num den e
    let m := roundQuotient n d
    if m = Nat.pow 2 bits then ⟨negative, Nat.pow 2 (bits - 1), e + 1⟩ else ⟨negative, m, e⟩

/-- The decimal `digits · 10 ^ power` as a quotient of integers. -/
def decimalQuotient (digits : Nat) (power : Int) : Nat × Nat :=
  if 0 ≤ power then (digits * Nat.pow 10 power.toNat, 1)
  else (digits, Nat.pow 10 (-power).toNat)

def isZero (x : Binary) : Bool := x.mantissa == 0

/-- The position of the first binary digit: a value other than zero is below `2 ^ top` and not below
half of that. -/
def top (x : Binary) : Int := bitLength x.mantissa + x.exponent

/-- The value as a quotient of integers, without its sign. -/
def quotient (x : Binary) : Nat × Nat :=
  if 0 ≤ x.exponent then (x.mantissa * Nat.pow 2 x.exponent.toNat, 1)
  else (x.mantissa, Nat.pow 2 (-x.exponent).toNat)

/-- The integer that is left when the fraction is cut off. -/
def truncate (x : Binary) : Int :=
  let (n, d) := x.quotient
  if x.negative then -((n / d : Nat) : Int) else ((n / d : Nat) : Int)

/-- Whether the value is a whole number. -/
def isWhole (x : Binary) : Bool :=
  let (n, d) := x.quotient
  n % d == 0

/-! ### Arithmetic at a given precision -/

/-- The number of bits behind which all digits of a number are zero. -/
def significant : Nat → Nat → Nat
  | 0, _ => 0
  | fuel + 1, n => if n % 2 = 0 then significant fuel (n / 2) else bitLength n

/-- The number of mantissa bits that hold the number exactly. -/
def minimalBits (x : Binary) : Nat := significant (bitLength x.mantissa) x.mantissa

/-- The number with a mantissa of at most `bits` bits. -/
def round (bits : Nat) (x : Binary) : Binary :=
  let r := ofQuotient bits none x.negative x.mantissa 1
  { r with exponent := r.exponent + x.exponent }

/-- The signed mantissa at exponent `e`, for an `e` that is not above the number's own. -/
def mantissaAt (x : Binary) (e : Int) : Int :=
  let m : Int := ((x.mantissa * Nat.pow 2 (x.exponent - e).toNat : Nat) : Int)
  if x.negative then -m else m

def neg (x : Binary) : Binary := { x with negative := !x.negative }

/-- Whether `y` is too small to change the last of `bits` bits of `x`. -/
def dwarfs (bits : Nat) (x y : Binary) : Bool :=
  !x.isZero && (y.isZero || decide (y.top + bits + 2 < x.top))

/-- The sum of two numbers of at most `bits` bits. -/
def add (bits : Nat) (x y : Binary) : Binary :=
  if dwarfs bits x y then x
  else if dwarfs bits y x then y
  else
    let e := min x.exponent y.exponent
    let s := x.mantissaAt e + y.mantissaAt e
    if s = 0 then ⟨x.negative && y.negative, 0, 0⟩
    else round bits ⟨decide (s < 0), s.natAbs, e⟩

def mul (bits : Nat) (x y : Binary) : Binary :=
  round bits ⟨x.negative != y.negative, x.mantissa * y.mantissa, x.exponent + y.exponent⟩

/-- The quotient, for a divisor that is not zero. -/
def div (bits : Nat) (x y : Binary) : Binary :=
  let q := ofQuotient bits none (x.negative != y.negative) x.mantissa y.mantissa
  { q with exponent := q.exponent + x.exponent - y.exponent }

/-- How two numbers compare without their signs. -/
def compareMagnitude (x y : Binary) : Ordering :=
  if x.isZero || y.isZero then Ord.compare x.mantissa y.mantissa
  else if x.top != y.top then Ord.compare x.top y.top
  else
    let e := min x.exponent y.exponent
    Ord.compare (x.mantissaAt e).natAbs (y.mantissaAt e).natAbs

/-- How two numbers compare; the two zeros are equal. -/
def compare (x y : Binary) : Ordering :=
  if x.isZero && y.isZero then .eq
  else
    let xNegative := x.negative && !x.isZero
    let yNegative := y.negative && !y.isZero
    if xNegative != yNegative then (if xNegative then .lt else .gt)
    else if xNegative then compareMagnitude y x
    else compareMagnitude x y

/-- A whole number. -/
def ofInt (i : Int) : Binary := ⟨decide (i < 0), i.natAbs, 0⟩

end Binary

/-! ### Double precision -/

/-- Numbers of 53 mantissa bits whose exponent is not below -1074. -/
def Binary.toDouble (negative : Bool) (num den : Nat) : Binary :=
  Binary.ofQuotient 53 (some (-1074)) negative num den

/-- Whether a number is below the largest power of two that a double can hold. -/
def Binary.fitsDouble (x : Binary) : Bool :=
  x.mantissa == 0 || decide ((bitLength x.mantissa : Int) + x.exponent ≤ 1024)

/-- The signed 64-bit integer of a double: the fraction is cut off, and a value out of range
becomes the least integer. -/
def Binary.toWord (x : Binary) : Int :=
  let i := x.truncate
  if fitsSigned i then i else -(signedBound : Int)

end TaskLoom
