/-!
# Expressions

The right-hand sides of a module's logic, and how they are written.  Compound operands stand in
parentheses, so that the tree can be read off the text.
-/

namespace TaskLoom

inductive UnaryOp where
  /-- Bitwise `~`. -/
  | complement
  /-- Logical `!`. -/
  | negation
  deriving DecidableEq, Repr

inductive BinaryOp where
  | eq
  | sub
  | add
  | shl
  /-- An operator without a meaning, written as a question mark. -/
  | unknown
  deriving DecidableEq, Repr

inductive Expr where
  /-- Nothing at all, as in an open port. -/
  | absent
  | ident (name : String)
  /-- A constant of a width in bits; a width that is not positive leaves it unsized. -/
  | const (width : Int) (value : UInt64)
  /-- A text that is kept as it is, such as `32'd5`. -/
  | literal (text : String)
  | unary (op : UnaryOp) (arg : Expr)
  | binary (op : BinaryOp) (lhs rhs : Expr)
  /-- The conjunction of its terms; without terms it is true. -/
  | all (terms : List Expr)
  deriving Repr, Inhabited

def UnaryOp.text : UnaryOp → String
  | .complement => "~"
  | .negation => "!"

def BinaryOp.text : BinaryOp → String
  | .eq => "=="
  | .sub => "-"
  | .add => "+"
  | .shl => "<<"
  | .unknown => "?"

namespace Expr

/-- A true bit. -/
abbrev yes : Expr := .const 1 1

/-- A false bit. -/
abbrev no : Expr := .const 1 0

/-- The equality of two expressions. -/
abbrev equals (x y : Expr) : Expr := .binary .eq x y

/-- A constant as it is written: in binary up to four bits, and in decimal beyond. -/
def constText (width : Int) (value : UInt64) : String :=
  if width ≤ 0 then "'d" ++ toString value.toNat
  else if width ≤ 4 then
    let digits := Nat.toDigits 2 value.toNat
    let zeros := List.replicate (width.toNat - digits.length) '0'
    toString width ++ "'b" ++ String.ofList (zeros ++ digits)
  else toString width ++ "'d" ++ toString value.toNat

/-- Whether an expression needs parentheses as an operand. -/
def isCompound : Expr → Bool
  | .binary .. => true
  | .all (_ :: _ :: _) => true
  | _ => false

/-- The text of an operand. -/
def parenthesize (e : Expr) (text : String) : String :=
  if e.isCompound then "(" ++ text ++ ")" else text

mutual

/-- An expression as it is written. -/
def text : Expr → String
  | .absent => ""
  | .ident name => name
  | .const width value => constText width value
  | .literal s => s
  | .unary op x => op.text ++ parenthesize x (text x)
  | .binary op x y =>
    parenthesize x (text x) ++ " " ++ op.text ++ " " ++ parenthesize y (text y)
  | .all [] => constText 1 1
  | .all [t] => text t
  | .all (t :: u :: ts) => String.intercalate " && " (operands (t :: u :: ts))

/-- The texts of several operands. -/
def operands : List Expr → List String
  | [] => []
  | e :: es => parenthesize e (text e) :: operands es

end

end Expr

end TaskLoom
