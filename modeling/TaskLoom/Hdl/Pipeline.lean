import TaskLoom.Hdl.Module

/-!
# Pipelines

A pipeline delays a signal by a fixed number of clock cycles.  Stage 0 is a wire that follows the
driving expression; each further stage is a register that takes over the stage before it.
-/

namespace TaskLoom

/-- Keeps later tools from moving or merging a register. -/
def keepAttr : String := "keep = \"true\""

structure Pipeline where
  name : String
  /-- The number of registers. -/
  level : Nat
  range : Option BitRange
  deriving DecidableEq, Repr, Inhabited

namespace Pipeline

/-- A pipeline for a signal of `width` bits; a negative level counts as none. -/
def make (name : String) (level width : Int) : Pipeline :=
  ⟨name, level.toNat, BitRange.bits width⟩

def stageName (p : Pipeline) (i : Nat) : String := p.name ++ "__q" ++ toString i

/-- A stage by its number; negative numbers count from the last stage. -/
def stage? (p : Pipeline) (i : Int) : Option String :=
  let j := if i < 0 then i + (p.level + 1) else i
  if 0 ≤ j ∧ j ≤ p.level then some (p.stageName j.toNat) else none

/-- The stage without delay. -/
def first (p : Pipeline) : String := p.stageName 0

/-- The stage with the full delay. -/
def last (p : Pipeline) : String := p.stageName p.level

/-- The declarations of the stages. -/
def signals (p : Pipeline) : List Signal :=
  { name := p.first, range := p.range } ::
    (List.range p.level).map fun i =>
      { name := p.stageName (i + 1), kind := .reg, range := p.range, attrs := [keepAttr] }

/-- The assignment of stage 0 and the block that shifts the registers. -/
def logic (p : Pipeline) (seed : Expr) : List Logic :=
  .assign p.first seed ::
    if p.level = 0 then []
    else [.clocked ((List.range p.level).map fun i =>
      .assign (p.stageName (i + 1)) (.ident (p.stageName i))) false]

/-- Everything that a pipeline driven by `seed` adds to a module. -/
def items (p : Pipeline) (seed : Expr) : List Item :=
  p.signals.map .signal ++ (p.logic seed).map .logic

end Pipeline

end TaskLoom
