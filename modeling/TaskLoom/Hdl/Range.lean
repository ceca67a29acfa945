import TaskLoom.Failure
import TaskLoom.Number.Word
import TaskLoom.Text.Basic
import TaskLoom.Text.Numeral

/-!
# Bit ranges

A declaration has no range, which makes it one bit wide, or a range `[msb:lsb]`.  The bounds are
kept as text, because a source may write them with parameters; a width exists only if both bounds
are integers.
-/

namespace TaskLoom

/-- The range `[msb:lsb]` of a declaration. -/
structure BitRange where
  msb : String
  lsb : String
  deriving DecidableEq, Repr, Inhabited

/-- A range whose bounds are no pair of integers. -/
structure AmbiguousWidth where
  range : BitRange
  deriving DecidableEq, Repr

namespace BitRange

/-- The range `[width-1:0]`, at least one bit wide. -/
def vector (width : Int) : BitRange :=
  ⟨toString (if width < 1 then 0 else width - 1), "0"⟩

/-- The range of `width` bits; one bit needs none. -/
def bits (width : Int) : Option BitRange :=
  if width ≤ 1 then none else some (vector width)

/-- A range as it is written; no range is no text. -/
def text : Option BitRange → String
  | none => ""
  | some r => "[" ++ r.msb ++ ":" ++ r.lsb ++ "]"

/-- The number of bits between two bounds, in either order, as a signed 64-bit word. -/
def span (a b : Int) : Int := wrap64 (max a b - min a b + 1)

/-- The width of a declaration. -/
def width : Option BitRange → Except AmbiguousWidth Int
  | none => .ok 1
  | some r =>
    match Numeral.int? (Text.trim r.msb), Numeral.int? (Text.trim r.lsb) with
    | some a, some b => .ok (span a b)
    | _, _ => .error ⟨r⟩

end BitRange

def AmbiguousWidth.message (e : AmbiguousWidth) : String :=
  BitRange.text (some e.range) ++ ": " ++ Kind.ambiguousWidth.text

instance : Failure AmbiguousWidth := ⟨fun _ => some .ambiguousWidth, AmbiguousWidth.message⟩

end TaskLoom
