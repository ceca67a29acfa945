import TaskLoom.Text.Numeral

/-!
# Number literals

A literal may carry a width, a tick and the letter of its base, as in `32'd5`.  Two readers look at
it: `Literal.sized?` asks whether a name is a complete sized literal, and `Literal.read` gives a
value to whatever stands in an expression.
-/

namespace TaskLoom

/-- A literal with its width in bits. -/
structure SizedLiteral where
  width : Int
  value : UInt64
  deriving DecidableEq, Repr

namespace Literal

/-- The base that a letter stands for. -/
def baseOf? (c : Char) : Option Nat :=
  if c = 'b' ∨ c = 'B' then some 2
  else if c = 'o' ∨ c = 'O' then some 8
  else if c = 'd' ∨ c = 'D' then some 10
  else if c = 'h' ∨ c = 'H' then some 16
  else none

/-- The characters without underscores. -/
def withoutUnderscores (cs : List Char) : List Char := cs.filter (· != '_')

/-- The text before the first tick, and the text after it. -/
def splitTick? (cs : List Char) : Option (List Char × List Char) :=
  match cs.span (· != '\'') with
  | (_, []) => none
  | (before, _ :: after) => some (before, after)

/-- Drops one given character off the front. -/
def dropOne (c : Char) : List Char → List Char
  | [] => []
  | d :: cs => if d = c then cs else d :: cs

/-- A complete sized literal: a width of 1 to 64, a tick, an optional mark of a signed number, the
letter of a base and digits of it. -/
def sized? (s : String) : Option SizedLiteral := do
  let (before, after) ← splitTick? s.toList
  let width ← (Numeral.signed before).toOption
  guard (0 < width ∧ width ≤ 64)
  match dropOne 'S' (dropOne 's' after) with
  | [] => none
  | letter :: digits =>
    let base ← baseOf? letter
    let value ← (Numeral.unsigned base (withoutUnderscores digits)).toOption
    return ⟨width, value.toUInt64⟩

/-- Why a text has no value as a literal. -/
inductive Fault where
  | malformed
  /-- A plain number that needs more than 64 bits. -/
  | tooLarge
  deriving DecidableEq, Repr

/-- A value reduced to a width.  A width below zero or from 64 on keeps the value. -/
def mask (v : UInt64) (width : Int) : UInt64 :=
  if width < 0 ∨ 64 ≤ width then v else v &&& ((1 <<< width.toNat.toUInt64) - 1)

/-- The value behind a tick.  Any letter but those of the bases 2, 8 and 16 counts as that of 10. -/
def basedValue? : List Char → Option Nat
  | [] => none
  | letter :: digits =>
    if 128 ≤ letter.toNat then none
    else (Numeral.unsigned ((baseOf? letter).getD 10) digits).toOption

/-- The value of a literal in an expression.  The width in front of the tick, if it is a number,
cuts the value; everything else about the text is taken leniently. -/
def read (s : String) : Except Fault UInt64 :=
  let cs := withoutUnderscores s.toList
  match splitTick? cs with
  | none =>
    match Numeral.unsigned 10 cs with
    | .ok n => .ok n.toUInt64
    | .error .malformed => .error .malformed
    | .error .outOfRange => .error .tooLarge
  | some (before, after) =>
    match basedValue? (after.dropWhile fun c => c == 's' || c == 'S') with
    | none => .error .malformed
    | some n =>
      match Numeral.signed before with
      | .ok w => .ok (mask n.toUInt64 w)
      | .error _ => .ok n.toUInt64

/-- What an expression makes of a literal: nothing for a malformed one, and the largest value for
one that is too large. -/
def value (s : String) : UInt64 :=
  match read s with
  | .ok v => v
  | .error .malformed => 0
  | .error .tooLarge => 0xFFFFFFFFFFFFFFFF

end Literal

end TaskLoom
