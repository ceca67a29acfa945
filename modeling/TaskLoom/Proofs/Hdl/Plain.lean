import TaskLoom.Hdl.Logic
import TaskLoom.Proofs.Hdl.Cutting

/-!
# Plain modules

What the names, bounds, numbers and attributes of a module have to be like by themselves
(`Module.Plain`), and next to what the rendering puts around them (`Module.Legible`), so that the
text of the module can be read back.  Everything is said about the bytes of a text, and about its
tokens where brackets and words are concerned.
-/

namespace TaskLoom

namespace Source

/-- Words that no name of a plain module is. -/
def specialWords : List String := reservedWords ++ typeWords ++ ["function", "task"]

/-- Letters and the underscore. -/
def startsName (b : UInt8) : Bool := b == ascii '_' || (97 ≤ b && b ≤ 122) || (65 ≤ b && b ≤ 90)

def continuesName (b : UInt8) : Bool := isWord b || b == ascii '$'

/-- An identifier that no reader of sources takes for something else. -/
def isPlainName (s : String) : Bool :=
  (match Text.bytes s with
    | [] => false
    | b :: l => startsName b && l.all continuesName) && !specialWords.contains s

/-- A text that is one token and begins with a digit or a tick. -/
def isNumber (s : String) : Bool :=
  match Text.bytes s with
  | [] => false
  | b :: l => ((48 ≤ b && b ≤ 57) || b == ascii '\'') && l.all continuesWord

/-- Whether the brackets of some words match, and none of the separators stands outside them. -/
def balanced : (depth : Nat) → List String → Bool
  | depth, [] => depth == 0
  | depth, w :: ws =>
    if opens w then balanced (depth + 1) ws
    else if closes w then depth != 0 && balanced (depth - 1) ws
    else (depth != 0 || !(["," , ";", ":"].contains w)) && balanced depth ws

/-- Whether the pair `x y` stands nowhere in a text. -/
def lacks (x y : Char) (s : String) : Bool := upTo? (ascii x) (ascii y) (Text.bytes s) == none

/-- A text that can be a bound of a range or the value of a parameter. -/
structure IsText (s : String) : Prop where
  trimmed : Text.trim s = s
  balanced : balanced 0 ((tokens (Text.bytes s)).map Token.text) = true
  quote : ascii '"' ∉ Text.bytes s
  tick : backtick ∉ Text.bytes s
  lineComment : lacks '/' '/' s = true
  blockComment : lacks '/' '*' s = true
  attributes : lacks '(' '*' s = true

instance : DecidablePred IsText := fun s =>
  decidable_of_iff (Text.trim s = s ∧ Source.balanced 0 ((tokens (Text.bytes s)).map Token.text) ∧
      ascii '"' ∉ Text.bytes s ∧ backtick ∉ Text.bytes s ∧ lacks '/' '/' s ∧ lacks '/' '*' s ∧
      lacks '(' '*' s)
    ⟨fun ⟨h₁, h₂, h₃, h₄, h₅, h₆, h₇⟩ => ⟨h₁, h₂, h₃, h₄, h₅, h₆, h₇⟩,
      fun ⟨h₁, h₂, h₃, h₄, h₅, h₆, h₇⟩ => ⟨h₁, h₂, h₃, h₄, h₅, h₆, h₇⟩⟩

/-- Both bounds of a range, if there is one, are of some kind. -/
def RangeOf (P : String → Prop) (r : Option BitRange) : Prop := ∀ b ∈ r, P b.msb ∧ P b.lsb

instance (P : String → Prop) [DecidablePred P] : DecidablePred (RangeOf P) := fun r =>
  decidable_of_iff (∀ b ∈ r.toList, P b.msb ∧ P b.lsb) (by simp [RangeOf])

/-- The words that mean something in the body of a module. -/
def bodyWords : List String :=
  ["endmodule", "function", "task", "parameter", "localparam", "input", "output", "inout"]

/-- None of the tokens means anything in the body of a module. -/
def Harmless (ts : List Token) : Prop := ∀ t ∈ ts, t.text ∉ bodyWords

instance : DecidablePred Harmless := fun ts => inferInstanceAs (Decidable (∀ t ∈ ts, _))

/-- A text without an attribute's end that does not begin like the end of a wildcard. -/
def isAttribute (s : String) : Bool :=
  lacks '*' ')' s && (Text.bytes s).head? != some (ascii ')')

end Source

open Source

mutual

def Expr.isPlain : Expr → Bool
  | .absent => true
  | .ident name => isPlainName name
  | .const _ _ => true
  | .literal text => isNumber text
  | .unary _ x => x.isPlain
  | .binary _ x y => x.isPlain && y.isPlain
  | .all ts => Expr.arePlain ts

def Expr.arePlain : List Expr → Bool
  | [] => true
  | e :: es => e.isPlain && Expr.arePlain es

end

mutual

def Stmt.isPlain : Stmt → Bool
  | .assign target value => isPlainName target && value.isPlain
  | .branch cond onTrue onFalse => cond.isPlain && Stmt.arePlain onTrue && Stmt.arePlain onFalse
  | .select subject arms => subject.isPlain && Stmt.armsPlain arms
  | .display _ args => Expr.arePlain args

def Stmt.arePlain : List Stmt → Bool
  | [] => true
  | s :: ss => s.isPlain && Stmt.arePlain ss

def Stmt.armsPlain : List (Expr × List Stmt) → Bool
  | [] => true
  | (pattern, body) :: arms => pattern.isPlain && Stmt.arePlain body && Stmt.armsPlain arms

end

def Logic.isPlain : Logic → Bool
  | .assign target value => isPlainName target && value.isPlain
  | .clocked body _ => Stmt.arePlain body

def Binding.isPlain (b : Binding) : Bool := isPlainName b.name && b.arg.isPlain

def Cell.isPlain (c : Cell) : Bool :=
  isPlainName c.module && isPlainName c.name && c.params.all Binding.isPlain &&
    c.ports.all Binding.isPlain && c.attrs.all isAttribute

/-- A module with plain names, and with texts that could stand in a source by themselves. -/
structure Module.Plain (m : Module) : Prop where
  name : isPlainName m.name = true
  ports : ∀ p ∈ m.ports, isPlainName p.name = true ∧ p.direction ≠ .unknown ∧ RangeOf IsText p.range
  params : ∀ q ∈ m.params, isPlainName q.name = true ∧ IsText q.value ∧ RangeOf IsText q.range
  signals : ∀ s ∈ m.signals,
    isPlainName s.name = true ∧ RangeOf IsText s.range ∧ s.attrs.all isAttribute = true
  cells : ∀ c ∈ m.cells, c.isPlain = true
  logics : ∀ l ∈ m.logics, l.isPlain = true

instance : DecidablePred Module.Plain := fun m =>
  decidable_of_iff (isPlainName m.name ∧
      (∀ p ∈ m.ports, isPlainName p.name ∧ p.direction ≠ .unknown ∧ RangeOf IsText p.range) ∧
      (∀ q ∈ m.params, isPlainName q.name ∧ IsText q.value ∧ RangeOf IsText q.range) ∧
      (∀ s ∈ m.signals, isPlainName s.name ∧ RangeOf IsText s.range ∧ s.attrs.all isAttribute) ∧
      (∀ c ∈ m.cells, c.isPlain) ∧ ∀ l ∈ m.logics, l.isPlain)
    ⟨fun ⟨h₁, h₂, h₃, h₄, h₅, h₆⟩ => ⟨h₁, h₂, h₃, h₄, h₅, h₆⟩,
      fun ⟨h₁, h₂, h₃, h₄, h₅, h₆⟩ => ⟨h₁, h₂, h₃, h₄, h₅, h₆⟩⟩

namespace Source

/-- A text that does not swallow what stands behind it. -/
def Ends (s : String) : Prop := Settled (Text.bytes s)

instance : DecidablePred Ends := fun s =>
  inferInstanceAs (Decidable (∀ q ∈ (Text.bytes s).tails, _))

/-- A text that a reader of a body skips. -/
def Silent (s : String) : Prop := Harmless (tokens (Text.bytes s))

instance : DecidablePred Silent := fun s =>
  inferInstanceAs (Decidable (Harmless (tokens (Text.bytes s))))

/-- Whether the first of some attributes is not taken for the end of a wildcard, with or without
blanks before it. -/
def beginsAttributes (attrs : List String) : Bool := !isWildcard (Text.bytes (attrs.headD ""))

end Source

/-- A module whose texts keep their meaning next to what the rendering puts around them. -/
structure Module.Legible (m : Module) : Prop where
  ports : ∀ p ∈ m.ports, RangeOf Ends p.range
  params : ∀ q ∈ m.params, Ends q.value ∧ RangeOf Ends q.range
  signals : ∀ s ∈ m.signals, RangeOf Silent s.range ∧ beginsAttributes s.attrs = true
  cells : ∀ c ∈ m.cells, beginsAttributes c.attrs = true

instance : DecidablePred Module.Legible := fun m =>
  decidable_of_iff ((∀ p ∈ m.ports, RangeOf Ends p.range) ∧
      (∀ q ∈ m.params, Ends q.value ∧ RangeOf Ends q.range) ∧
      (∀ s ∈ m.signals, RangeOf Silent s.range ∧ beginsAttributes s.attrs) ∧
      ∀ c ∈ m.cells, beginsAttributes c.attrs)
    ⟨fun ⟨h₁, h₂, h₃, h₄⟩ => ⟨h₁, h₂, h₃, h₄⟩, fun ⟨h₁, h₂, h₃, h₄⟩ => ⟨h₁, h₂, h₃, h₄⟩⟩

namespace Source

/-- A text that can be read back where it stands as a bound or a value. -/
structure IsBound (s : String) : Prop extends IsText s where
  ends : Ends s

theorem RangeOf.isBound {r : Option BitRange} (h : RangeOf IsText r) (he : RangeOf Ends r) :
    RangeOf IsBound r := by
  intro b hb
  exact ⟨⟨(h b hb).1, (he b hb).1⟩, ⟨(h b hb).2, (he b hb).2⟩⟩

end Source

end TaskLoom
