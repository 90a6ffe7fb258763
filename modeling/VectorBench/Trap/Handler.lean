import VectorBench.Trap.Dispatcher

/-!
# Trap handler

The handler that a trap entry calls.  It completes the trap value on cores that leave it zero,
refuses instructions that would overwrite the stack pointer, and hands the rest to the dispatcher.
-/

namespace VectorBench

/-- The faulting instruction of an illegal instruction trap.  Where the core leaves the trap value
zero, it is fetched from the saved program counter. -/
def completeInfo {σ : Type} (fetch : Word → σ → Word × σ) (info : TrapInfo) (state : TrapState σ) :
    TrapInfo × TrapState σ :=
  if info.isIllegalInstruction && info.mtval = 0 then
    let (word, surroundings) := fetch state.context.pc state.surroundings
    ({ info with mtval := word }, { state with surroundings })
  else (info, state)

/-- Whether a trap stands for an instruction that writes the stack pointer, which the trap entry
does not restore. -/
def writesStackPointer (info : TrapInfo) (context : TrapContext) : Bool :=
  info.isIllegalInstruction &&
    match decode info.mtval context with
    | .ok instruction => instruction.scalarDestination? = some XReg.sp
    | .error _ => false

def handleTrap {σ : Type} (service : σ → Word × σ) (fetch : Word → σ → Word × σ)
    (mcause mtval : Word) (state : TrapState σ) : Except Fault TrapOutcome × TrapState σ :=
  let (info, state) := completeInfo fetch { mcause, mtval } state
  if writesStackPointer info state.context then (.error .illegalRegister, state)
  else dispatch service info state

/-- The contents of a vector register after an instruction that should have been emulated.  If the
count of emulated instructions did not move, it was not. -/
def emulatedVector (dispatcher : Dispatcher) (countBefore : Word) (vd : VReg) :
    Except Fault VectorWords :=
  if dispatcher.emulated = countBefore then .error .unsupportedOpcode
  else .ok (dispatcher.vregs.readRegister vd)

def trapDiagnostic (code : FaultCode) (mcause mtval : Word) (context : TrapContext) : String :=
  "rvvLite trap error " ++ Hex.marked code.value ++ " mcause=" ++ Hex.marked mcause ++
    " mepc=" ++ Hex.marked context.pc ++ " mtval=" ++ Hex.marked mtval ++ "\n"

end VectorBench
