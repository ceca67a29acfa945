import TaskLoom.Number.Decimal
import TaskLoom.Number.Literal

/-!
# Amounts

The numbers of the settings language: binary fractions whose first digit stands at a position of 32
signed bits, and infinities, which come from divisions by zero and from values that are too large.
Operations without a sensible result have none.
-/

namespace TaskLoom.Settings

inductive Amount where
  /-- A number that is held with the given number of mantissa bits. -/
  | finite (x : Binary) (bits : Nat)
  /-- An infinity.  It is a limit if it stands for the end of all numbers and is not the result of
  an operation. -/
  | infinite (negative isLimit : Bool)
  deriving DecidableEq, Repr

namespace Amount

/-- The number of mantissa bits of what is written down. -/
def precision : Nat := 512

/-- The highest position of the first binary digit. -/
def topLimit : Int := 0x7FFFFFFF

/-- The lowest position of the first binary digit. -/
def bottomLimit : Int := -0x80000000

/-- The end of all numbers on one side. -/
def limit (negative : Bool) : Amount := .infinite negative true

/-- The amount of a number: infinite if it is too large, and zero if it is too small. -/
def ofBinary (bits : Nat) (x : Binary) : Amount :=
  if x.isZero then .finite x bits
  else if topLimit < x.top then .infinite x.negative false
  else if x.top < bottomLimit then .finite ⟨x.negative, 0, 0⟩ bits
  else .finite x bits

/-- A position in a list, which is held as a word. -/
def ofPosition (i : Nat) : Amount := .finite (Binary.ofInt i) 64

/-! ### Arithmetic -/

def isLimit : Amount → Bool
  | .finite _ _ => false
  | .infinite _ isLimit => isLimit

def isZero : Amount → Bool
  | .finite x _ => x.isZero
  | .infinite _ _ => false

def neg : Amount → Amount
  | .finite x bits => .finite x.neg bits
  | .infinite negative _ => .infinite (!negative) false

def add? : Amount → Amount → Option Amount
  | .finite x b, .finite y c => some (ofBinary (max b c) (Binary.add (max b c) x y))
  | .infinite m _, .infinite n _ => if m == n then some (.infinite m false) else none
  | .infinite m _, .finite _ _ => some (.infinite m false)
  | .finite _ _, .infinite n _ => some (.infinite n false)

def sub? (a b : Amount) : Option Amount := add? a b.neg

/-- The product, rounded to `bits` mantissa bits. -/
def mulAt? (bits : Nat) : Amount → Amount → Option Amount
  | .finite x _, .finite y _ => some (ofBinary bits (Binary.mul bits x y))
  | .finite x _, .infinite n _ =>
    if x.isZero then none else some (.infinite (x.negative != n) false)
  | .infinite m _, .finite y _ =>
    if y.isZero then none else some (.infinite (m != y.negative) false)
  | .infinite m _, .infinite n _ => some (.infinite (m != n) false)

/-- The product, which is held with as many bits as its factors, or as it takes to keep it exact. -/
def mul? (a b : Amount) : Option Amount :=
  (mulAt? precision a b).map fun p =>
    match a, b, p with
    | .finite _ b, .finite _ c, .finite z _ => .finite z (max z.minimalBits (max b c))
    | _, _, p => p

/-- The quotient.  Only zero has none by zero, and only an infinity has none by an infinity. -/
def div? : Amount → Amount → Option Amount
  | .finite x b, .finite y c =>
    if !y.isZero then some (ofBinary (max b c) (Binary.div (max b c) x y))
    else if x.isZero then none
    else some (.infinite (x.negative != y.negative) false)
  | .finite x b, .infinite n _ => some (.finite ⟨x.negative != n, 0, 0⟩ b)
  | .infinite m _, .finite y _ => some (.infinite (m != y.negative) false)
  | .infinite _ _, .infinite _ _ => none

/-- What is left of `a` after as many whole `b`s as fit; all of it if `b` is zero.  Beside a limit
it is the product. -/
def mod? (a b : Amount) : Option Amount := do
  if a.isLimit || b.isLimit then mul? a b
  else if b.isZero then return a
  else match a, b, ← div? a b with
    | .finite x bits, .finite y _, .finite q _ =>
      let whole := (Binary.ofInt q.truncate).round bits
      return ofBinary bits (Binary.add bits x (Binary.mul bits y whole).neg)
    | _, _, _ => none

def compare : Amount → Amount → Ordering
  | .finite x _, .finite y _ => Binary.compare x y
  | .infinite m _, .infinite n _ => if m == n then .eq else if m then .lt else .gt
  | .infinite m _, .finite _ _ => if m then .lt else .gt
  | .finite _ _, .infinite n _ => if n then .gt else .lt

/-- A whole number that fits a signed 64-bit word. -/
def toInt? : Amount → Option Int
  | .finite x _ =>
    if x.isZero then some 0
    else if 64 < x.top || x.top < 1 || !x.isWhole then none
    else if fitsSigned x.truncate then some x.truncate else none
  | .infinite _ _ => none

/-! ### Powers of five

A literal with a decimal exponent is scaled by a power of five, which is worked out with 64 bits
more than the literal has, from squares of five with another 64 bits. -/

/-- The largest exponent whose power of five is a 64-bit word. -/
def exactPower : Nat := 27

/-- Multiplies `z` by `f ^ n`, at most `fuel` binary digits of `n` long. -/
def timesPower (z f : Amount) : Nat → Nat → Amount
  | 0, _ => z
  | fuel + 1, n =>
    if n = 0 then z
    else
      let z := if n % 2 = 1 then (mulAt? (precision + 64) z f).getD z else z
      timesPower z ((mulAt? (precision + 128) f f).getD f) fuel (n / 2)

def powerOfFive (n : Nat) : Amount :=
  let whole (i : Nat) : Amount := .finite (Binary.ofInt (Nat.pow 5 i)) (precision + 64)
  if n ≤ exactPower then whole n
  else timesPower (whole exactPower) (whole 1) (bitLength n) (n - exactPower)

/-! ### Text -/

/-- The amount of a literal: digits, of which `fraction` stand behind the point, and an exponent to
base ten or two.  There is none if the exponent is no 64-bit integer or moves the first binary digit
out of range. -/
def ofLiteral? (negative : Bool) (digits fraction : Nat) (isTen : Bool) (exponent : Int) :
    Option Amount :=
  let shift := exponent - fraction
  let x : Binary := ⟨negative, digits, shift⟩
  let fives : Int := if isTen then shift else -fraction
  if !fitsSigned exponent then none
  else if x.isZero then some (.finite ⟨negative, 0, 0⟩ precision)
  else if topLimit < x.top || x.top < bottomLimit then none
  else match powerOfFive fives.natAbs with
    | .infinite _ _ =>
      some (if 0 < fives then .infinite negative false else .finite ⟨negative, 0, 0⟩ precision)
    | .finite p _ =>
      some (ofBinary precision
        (if 0 ≤ fives then Binary.mul precision x p else Binary.div precision x p))

/-- A mantissa: digits with at most one point, at least one digit in all. -/
def isMantissa (cs : List Char) : Bool :=
  let (whole, rest) := cs.span Char.isDigit
  match rest with
  | [] => !whole.isEmpty
  | '.' :: fraction => fraction.all Char.isDigit && !(whole.isEmpty && fraction.isEmpty)
  | _ => false

/-- An exponent behind its letter: digits with an optional sign. -/
def isExponent (cs : List Char) : Bool :=
  let digits := (Numeral.splitSign cs).2
  !digits.isEmpty && digits.all Char.isDigit

/-- The amount that a whole text denotes: a decimal number with an optional exponent, which is a
power of ten behind the letter `e` and a power of two behind the letter `p`, or an infinity. -/
def ofText? (s : String) : Option Amount :=
  let (negative, magnitude) := Numeral.splitSign s.toList
  if magnitude == ['I', 'n', 'f'] || magnitude == ['i', 'n', 'f'] then
    some (.infinite negative false)
  else
    let isTen (c : Char) : Bool := c == 'e' || c == 'E'
    let isTwo (c : Char) : Bool := c == 'p' || c == 'P'
    let (mantissa, rest) := magnitude.span fun c => !(isTen c || isTwo c)
    if !isMantissa mantissa then none
    else
      let digits := DecimalLiteral.natOfDigits (mantissa.filter (· != '.'))
      let fraction := (mantissa.dropWhile (· != '.')).length - 1
      match rest with
      | [] => ofLiteral? negative digits fraction true 0
      | mark :: exponent =>
        if !isExponent exponent then none
        else ofLiteral? negative digits fraction (isTen mark) (DecimalLiteral.exponentOf exponent)

/-- The shortest text that denotes the amount. -/
def text : Amount → String
  | .finite x bits => (Decimal.shortest bits false x).positional
  | .infinite negative _ => if negative then "-Inf" else "+Inf"

end Amount

end TaskLoom.Settings
