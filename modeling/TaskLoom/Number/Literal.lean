import TaskLoom.Number.Binary
import TaskLoom.Text.Numeral

/-!
# Decimal literals

A decimal literal is a digit sequence with an optional point and an optional exponent.  Its value is
exact; rounding happens when it is turned into a binary number.
-/

namespace TaskLoom

/-- The number `± digits · 10 ^ power`. -/
structure DecimalLiteral where
  negative : Bool
  digits : Nat
  power : Int
  deriving DecidableEq, Repr

namespace DecimalLiteral

/-- The value of a digit sequence; other characters do not occur in it. -/
def natOfDigits (cs : List Char) : Nat :=
  cs.foldl (fun n c => n * 10 + (Numeral.digitValue? c).getD 0) 0

/-- The exponent after the letter `e`. -/
def exponentOf (cs : List Char) : Int :=
  let (negative, digits) := Numeral.splitSign cs
  let n : Int := natOfDigits digits
  if negative then -n else n

/-- Takes a well-formed literal apart. -/
def ofChars (cs : List Char) : DecimalLiteral :=
  let (negative, magnitude) := Numeral.splitSign cs
  let isMark (c : Char) : Bool := c == 'e' || c == 'E'
  let (mantissa, exponent) := magnitude.span (fun c => !isMark c)
  let (whole, fraction) := mantissa.span (· != '.')
  let fraction := fraction.drop 1
  ⟨negative, natOfDigits (whole ++ fraction), exponentOf (exponent.drop 1) - fraction.length⟩

/-- A bound on the size of the value, which is below `10 ^ magnitude`. -/
def magnitude (d : DecimalLiteral) : Int := (Nat.toDigits 10 d.digits).length + d.power

/-- The nearest double, unless the value is too large for one. -/
def toDouble? (d : DecimalLiteral) : Option Binary :=
  if d.digits = 0 ∨ d.magnitude < -330 then some ⟨d.negative, 0, 0⟩
  else if 330 < d.magnitude then none
  else
    let (num, den) := Binary.decimalQuotient d.digits d.power
    let x := Binary.toDouble d.negative num den
    if x.fitsDouble then some x else none

end DecimalLiteral

end TaskLoom
