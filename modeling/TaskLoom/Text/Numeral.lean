import TaskLoom.Number.Word

/-!
# Reading integers

Digits are read from left to right.  The first character that is no digit of the base, or the
first digit that takes the value out of its range, decides why a text is no number.
-/

namespace TaskLoom

/-- Why a text is not read as an integer. -/
inductive NumeralFault where
  | malformed
  | outOfRange
  deriving DecidableEq, Repr

namespace Numeral

/-- The value of a digit; letters of either case follow the ten digits. -/
def digitValue? (c : Char) : Option Nat :=
  if '0' ≤ c ∧ c ≤ '9' then some (c.toNat - 48)
  else if 'a' ≤ c ∧ c ≤ 'z' then some (c.toNat - 87)
  else if 'A' ≤ c ∧ c ≤ 'Z' then some (c.toNat - 55)
  else none

/-- Extends the value `n` by the digits `cs`, as long as it stays below `limit`. -/
def extend (base limit n : Nat) : List Char → Except NumeralFault Nat
  | [] => .ok n
  | c :: cs =>
    match digitValue? c with
    | none => .error .malformed
    | some d =>
      if base ≤ d then .error .malformed
      else if limit ≤ n * base + d then .error .outOfRange
      else extend base limit (n * base + d) cs

/-- One or more digits whose value fits 64 bits. -/
def unsigned (base : Nat) (cs : List Char) : Except NumeralFault Nat :=
  if cs.isEmpty then .error .malformed else extend base wordCount 0 cs

/-- Splits off a leading sign. -/
def splitSign : List Char → Bool × List Char
  | '-' :: cs => (true, cs)
  | '+' :: cs => (false, cs)
  | cs => (false, cs)

/-- The signed 64-bit integer of a given sign and magnitude. -/
def withSign (negative : Bool) (n : Nat) : Except NumeralFault Int :=
  if negative then
    if n ≤ signedBound then .ok (-(n : Int)) else .error .outOfRange
  else if n < signedBound then .ok n
  else .error .outOfRange

/-- A decimal integer with an optional sign that fits a signed 64-bit word. -/
def signed (cs : List Char) : Except NumeralFault Int := do
  let (negative, digits) := splitSign cs
  withSign negative (← unsigned 10 digits)

/-- A text as a decimal integer with an optional sign that fits a signed 64-bit word. -/
def int? (s : String) : Option Int := (signed s.toList).toOption

/-! ### Integers with a mark for their base -/

/-- The base that the start of a digit sequence announces, and the digits after that mark: `0b`,
`0o` and `0x` if something follows, and a lone `0` for octal. -/
def baseMark : List Char → Nat × List Char
  | '0' :: m :: c :: cs =>
    if m = 'b' ∨ m = 'B' then (2, c :: cs)
    else if m = 'o' ∨ m = 'O' then (8, c :: cs)
    else if m = 'x' ∨ m = 'X' then (16, c :: cs)
    else (8, m :: c :: cs)
  | '0' :: cs => (8, cs)
  | cs => (10, cs)

/-- Whether each underscore stands between two digits; `afterDigit` says whether a digit (or the
mark of a base) stands before the first character. -/
def wellSpaced (afterDigit : Bool) : List Char → Bool
  | [] => true
  | ['_'] => false
  | '_' :: c :: cs => afterDigit && c != '_' && wellSpaced true (c :: cs)
  | _ :: cs => wellSpaced true cs

/-- Whether the underscores of a magnitude stand between digits. -/
def spacedMagnitude : List Char → Bool
  | '0' :: m :: cs => wellSpaced true (if m ∈ ['b', 'B', 'o', 'O', 'x', 'X'] then cs else m :: cs)
  | cs => wellSpaced false cs

/-- An integer that may carry a sign, a mark of its base, and underscores between its digits. -/
def anyBase (cs : List Char) : Except NumeralFault Int := do
  let (negative, magnitude) := splitSign cs
  if magnitude.isEmpty then throw .malformed
  let (base, digits) := baseMark magnitude
  let n ← extend base wordCount 0 (digits.filter (· != '_'))
  unless spacedMagnitude magnitude do throw .malformed
  withSign negative n

end Numeral

end TaskLoom
