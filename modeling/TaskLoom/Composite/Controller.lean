import TaskLoom.Composite.Draft

/-!
# Controllers

A composite has one controller of its own, which runs through idle, running, drain and, with
registers on the paths, further drain cycles.  Each instance that is started and waited for has a
controller for its handshake.
-/

namespace TaskLoom

/-- A state of a controller in two bits. -/
def stateCode (code : UInt64) : Expr := .const 2 code

abbrev state00 : Expr := stateCode 0

abbrev state01 : Expr := stateCode 1

abbrev state10 : Expr := stateCode 2

abbrev state11 : Expr := stateCode 3

/-- The cycles to wait after the first drain cycle. -/
def drainCycles (level : Nat) : Nat := level - 1

/-- The least width, at least one bit, that holds the number of drain cycles. -/
def countdownWidth (level : Nat) : Nat := max 1 (bitLength (drainCycles level))

/-- The start of a composite, delayed. -/
def startPipeline (level : Nat) : Pipeline := Pipeline.make startPort level 1

/-- The end of a run, delayed. -/
def donePipeline (level : Nat) : Pipeline := Pipeline.make donePort level 1

/-- The registers of a composite's controller, and the delayed start and end that the controllers of
the instances look at. -/
def declareControl (level : Nat) : Build Unit := do
  Build.add [.signal ⟨stateReg, .reg, BitRange.bits 2, []⟩,
    .signal ⟨countdownReg, .reg, some (BitRange.vector (countdownWidth level)), []⟩]
  Build.pipeline (startPipeline level) (.ident startPort)
  Build.pipeline (donePipeline level) (.equals (.ident stateReg) state10)

/-! ### The controller of a composite -/

def setState (reg : String) (s : Expr) : Stmt := .assign reg s

/-- Entering the drain. -/
def enterDrain (level : Nat) : List Stmt :=
  [setState stateReg state10,
   .assign countdownReg (.const (countdownWidth level) (drainCycles level).toUInt64)]

/-- A run ends when all instances are done, at once if there are none to wait for. -/
def runningBody (level : Nat) (finished : List Pipeline) : List Stmt :=
  if finished.isEmpty then enterDrain level
  else [.branch (.all (finished.map fun q => .ident q.last)) (enterDrain level) []]

/-- The further drain cycles. -/
def drainBody (level : Nat) : List Stmt :=
  let width : Int := countdownWidth level
  [.branch (.equals (.ident countdownReg) (.const width 0)) [setState stateReg state00]
    [.assign countdownReg (.binary .sub (.ident countdownReg) (.const width 1))]]

/-- One step of the controller outside reset. -/
def controlStep (level : Nat) (finished : List Pipeline) : Stmt :=
  .select (.ident stateReg)
    [(state00, [.branch (.ident (startPipeline level).last) [setState stateReg state01] []]),
     (state01, runningBody level finished),
     (state10, [setState stateReg (if 0 < level then state11 else state00)]),
     (state11, drainBody level)]

/-- The controller of a composite that waits for the given instances, and its status ports. -/
def controlLogic (level : Nat) (finished : List Pipeline) : List Logic :=
  [.clocked [.branch (.ident resetWire) [setState stateReg state00]
      [controlStep level finished]] false,
   .assign idlePort (.equals (.ident stateReg) state00),
   .assign donePort (.ident (donePipeline level).last),
   .assign readyPort (.ident (donePipeline level).first)]

/-! ### The controller of an instance -/

/-- One step of the controller of an instance outside reset. -/
def handshakeStep (placed : String) (start done : Pipeline) : Stmt :=
  let state := instanceState placed
  .select (.ident state)
    [(state00, [.branch (.ident start.last) [setState state state01] []]),
     (state01, [.branch (.ident (instanceReady placed))
        [.branch (.ident (instanceDone placed)) [setState state state10] [setState state state11]]
        []]),
     (state11, [.branch (.ident (instanceDone placed)) [setState state state10] []]),
     (state10, [.branch (.ident done.last) [setState state state00] []])]

/-- The controller of an instance, and the start that it gives. -/
def handshakeLogic (placed : String) (reset start done : Pipeline) : List Logic :=
  let state := instanceState placed
  [.clocked [.branch (.unary .negation (.ident reset.last)) [setState state state00]
      [handshakeStep placed start done]] false,
   .assign (instanceStart placed) (.equals (.ident state) state01)]

end TaskLoom
