import TaskLoom.Hdl.Literal
import TaskLoom.Hdl.Module

/-!
# Names inside a composite module

Every signal of a composite module has one spelling, derived from the instance, stream or memory it
belongs to and from its role.
-/

namespace TaskLoom

/-! ### The handshake -/

def clockPort : String := "ap_clk"

/-- The reset, active while low. -/
def resetPort : String := "ap_rst_n"

def startPort : String := "ap_start"

def donePort : String := "ap_done"

def idlePort : String := "ap_idle"

def readyPort : String := "ap_ready"

/-- The ports by which a module is clocked, reset and run. -/
def handshakePorts : List String :=
  [clockPort, resetPort, startPort, donePort, idlePort, readyPort]

/-- The reset, active while high. -/
def resetWire : String := "ap_rst_n_inv"

/-- The state of the controller of a composite. -/
def stateReg : String := "ctrl_state"

/-- The cycles that the controller still has to wait. -/
def countdownReg : String := "ctrl_countdown"

/-- The primitive behind a stream. -/
def fifoPrimitive : String := "fifo"

/-- The primitive behind a memory with separate channels. -/
def channelPrimitive : String := "async_mmap"

/-! ### Streams -/

/-- The endings of the three ports of a stream: its data, the flag that data or room is there, and
the enable that moves one item. -/
structure StreamSide where
  data : String
  flag : String
  enable : String
  deriving DecidableEq, Repr

def StreamSide.suffixes (s : StreamSide) : List String := [s.data, s.flag, s.enable]

def readSide : StreamSide := ⟨"_dout", "_empty_n", "_read"⟩

def writeSide : StreamSide := ⟨"_din", "_full_n", "_write"⟩

/-- The wire of a stream in one role, such as `q__dout`. -/
def streamWire (stream suffix : String) : String :=
  flatName stream ++ "__" ++ String.ofList (Literal.dropOne '_' suffix.toList)

/-! ### Instances -/

/-- A signal of an instance. -/
def ownSignal (placed role : String) : String := placed ++ "__" ++ role

def instanceState (placed : String) : String := ownSignal placed "state"

def instanceStart (placed : String) : String := ownSignal placed startPort

def instanceDone (placed : String) : String := ownSignal placed donePort

def instanceIdle (placed : String) : String := ownSignal placed idlePort

def instanceReady (placed : String) : String := ownSignal placed readyPort

def instanceReset (placed : String) : String := ownSignal placed resetPort

def instanceStartGlobal (placed : String) : String := ownSignal placed "ap_start_global"

def instanceDoneGlobal (placed : String) : String := ownSignal placed "ap_done_global"

def instanceIsDone (placed : String) : String := ownSignal placed "is_done"

/-- The delayed value of an argument of an instance; a constant is named by its width and value. -/
def instanceArg (placed arg : String) : String :=
  match Literal.sized? arg with
  | some c => s!"{placed}___const__{c.width}b{c.value.toNat}"
  | none => placed ++ "___" ++ flatName arg

/-! ### Memories -/

/-- A port of a memory bus, such as `m_axi_mem_ARADDR`. -/
def busPort (arg channel port : String) : String := "m_axi_" ++ arg ++ "_" ++ channel ++ port

/-- A signal of a memory channel, such as `mem_read_addr__din`. -/
def channelWire (arg channel suffix : String) : String := streamWire (arg ++ "_" ++ channel) suffix

end TaskLoom
