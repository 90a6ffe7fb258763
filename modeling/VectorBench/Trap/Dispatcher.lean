import VectorBench.Datapath
import VectorBench.Trap.Cause
import VectorBench.Trap.Decoded

/-!
# Trap dispatcher

The dispatcher handles one trap at a time: an illegal instruction is carried out by its emulator,
every other trap goes to the interrupt service.  A trap that arrives while another one is handled
is refused, and the refusal leaves the dispatcher idle.
-/

namespace VectorBench

inductive DispatchState where
  | idle
  | handling
deriving DecidableEq, Repr

def DispatchState.name : DispatchState → String
  | .idle => "Idle"
  | .handling => "Handling"

/-- The result of an emulated instruction. -/
inductive OperationResult where
  | word (value : Word)
  | vector (words : VectorWords)
deriving DecidableEq

inductive TrapOutcome where
  /-- The instruction was carried out, and the saved program counter is past it. -/
  | emulated (instruction : DecodedInstruction) (result : OperationResult)
  | interrupt (serviced : Word)
deriving DecidableEq

structure Dispatcher where
  emulator : Datapath
  state : DispatchState
  vregs : VRegFile
  /-- Instructions emulated so far, wrapping. -/
  emulated : Word

namespace Dispatcher

def initial (emulator : Datapath) : Dispatcher where
  emulator := emulator
  state := .idle
  vregs := VRegFile.zeroed
  emulated := 0

/-- Starts to handle a trap.  Where one is being handled already the new one is refused, and the
dispatcher becomes idle. -/
def enter (dispatcher : Dispatcher) : Except Fault Unit × Dispatcher :=
  match dispatcher.state with
  | .idle => (.ok (), { dispatcher with state := .handling })
  | .handling => (.error .nestedTrap, { dispatcher with state := .idle })

def exit (dispatcher : Dispatcher) : Dispatcher :=
  { dispatcher with state := .idle }

def countEmulated (dispatcher : Dispatcher) : Dispatcher :=
  { dispatcher with emulated := dispatcher.emulated + 1 }

def emulate (dispatcher : Dispatcher) (context : TrapContext) (word : Word) :
    Except Fault (TrapOutcome × Dispatcher × TrapContext) :=
  match decode word context with
  | .error fault => .error fault
  | .ok instruction =>
      let funct3 := instruction.fields.operationCode
      let funct7 := instruction.fields.variantCode
      match instruction.operands with
      | .scalar a b rd =>
          let value := dispatcher.emulator funct3 funct7 a b
          .ok (.emulated instruction (.word value), dispatcher.countEmulated,
            (context.set rd value).advancePc)
      | .vector vs1 vs2 vd =>
          let words := dispatcher.emulator.onVectors funct3 funct7
            (dispatcher.vregs.readRegister vs1) (dispatcher.vregs.readRegister vs2)
          .ok (.emulated instruction (.vector words),
            { dispatcher with vregs := dispatcher.vregs.writeRegister vd words }.countEmulated,
            context.advancePc)

end Dispatcher

/-- All that handling a trap can change: the dispatcher, the interrupted context, and the
surroundings `σ` in which the interrupt service runs. -/
structure TrapState (σ : Type) where
  dispatcher : Dispatcher
  context : TrapContext
  surroundings : σ

def dispatch {σ : Type} (service : σ → Word × σ) (info : TrapInfo) (state : TrapState σ) :
    Except Fault TrapOutcome × TrapState σ :=
  match state.dispatcher.enter with
  | (.error fault, dispatcher) => (.error fault, { state with dispatcher })
  | (.ok (), dispatcher) =>
      if info.isIllegalInstruction then
        match dispatcher.emulate state.context info.mtval with
        | .ok (outcome, dispatcher, context) =>
            (.ok outcome, { state with dispatcher := dispatcher.exit, context })
        | .error fault => (.error fault, { state with dispatcher := dispatcher.exit })
      else
        let (serviced, surroundings) := service state.surroundings
        (.ok (.interrupt serviced), { state with dispatcher := dispatcher.exit, surroundings })

end VectorBench
