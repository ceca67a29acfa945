/-!
# Failure classes

Everything that can go wrong has a message, and most of it belongs to one of four classes that a
caller tells apart.  Each part of the library has its own type of failures; this module only holds
what they share.
-/

namespace TaskLoom

/-- The classes of failures that callers tell apart. -/
inductive Kind where
  /-- A dangling or contradictory reference in a description or a source. -/
  | malformed
  /-- An argument whose category cannot be wired. -/
  | unsupportedCategory
  /-- A bit range that is no pair of integers where an exact width is needed. -/
  | ambiguousWidth
  /-- A second declaration of a name, or a second owner of a file. -/
  | namingCollision
  deriving DecidableEq, Repr

/-- How a class is named at the end of a message. -/
def Kind.text : Kind → String
  | .malformed => "malformed description"
  | .unsupportedCategory => "unsupported argument category"
  | .ambiguousWidth => "ambiguous width"
  | .namingCollision => "naming collision"

/-- All classes, the most telling one first. -/
def Kind.ranked : List Kind := [.malformed, .unsupportedCategory, .ambiguousWidth, .namingCollision]

/-- Of several classes, the one that a caller sees. -/
def Kind.leading? (kinds : List Kind) : Option Kind := Kind.ranked.find? (kinds.contains ·)

/-- Failures with a message and, possibly, a class. -/
class Failure (ε : Type) where
  kind? : ε → Option Kind
  message : ε → String

end TaskLoom
