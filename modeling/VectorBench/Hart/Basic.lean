import VectorBench.Clock
import VectorBench.Hart.Config
import VectorBench.Interrupt
import VectorBench.Trap.Dispatcher

/-!
# Harts

A hart runs vector instructions.  What its datapath implements runs there; everything else traps,
and the trap handler emulates it with the software model or stops the hart.  The vector registers
of the trap handler are the ones the datapath works on.
-/

namespace VectorBench

inductive StepAction where
  | hardware
  | trap (outcome : TrapOutcome)
deriving DecidableEq

/-- A hart whose interrupt handlers have type `H`. -/
structure Hart (H : Type) where
  xregs : XRegFile
  pc : Word
  resetPc : Word
  clock : Clock
  config : HartConfig
  datapath : Datapath
  dispatcher : Dispatcher
  interrupts : InterruptController H
  interruptsEnabled : Bool
  halted : Bool

namespace Hart

variable {H : Type}

def initial (clock : Clock) (config : HartConfig) (datapath : Datapath) : Hart H where
  xregs := XRegFile.zeroed
  pc := 0
  resetPc := 0
  clock := clock
  config := config
  datapath := datapath
  dispatcher := Dispatcher.initial Datapath.model
  interrupts := InterruptController.initial
  interruptsEnabled := false
  halted := false

def externalInterrupt : BitVec 8 := 11

def vregs (hart : Hart H) : VRegFile :=
  hart.dispatcher.vregs

def setVregs (hart : Hart H) (vregs : VRegFile) : Hart H :=
  { hart with dispatcher := { hart.dispatcher with vregs } }

def setResetPc (hart : Hart H) (pc : Word) : Hart H :=
  { hart with pc, resetPc := pc }

def setInterruptsEnabled (hart : Hart H) (enabled : Bool) : Hart H :=
  { hart with interruptsEnabled := enabled }

def raiseInterrupt (hart : Hart H) (number : Nat) : Hart H :=
  { hart with interrupts := hart.interrupts.raise number }

/-- Clears the registers, leaves any trap and starts again at the reset address.  The clock, the
count of emulated instructions and the interrupt lines are kept. -/
def reset (hart : Hart H) : Hart H :=
  { hart with
    xregs := XRegFile.zeroed
    dispatcher := { hart.dispatcher with vregs := VRegFile.zeroed, state := .idle }
    pc := hart.resetPc
    interruptsEnabled := false
    halted := false }

def takesInterrupt (hart : Hart H) : Bool :=
  hart.interruptsEnabled && hart.interrupts.firing ≠ 0

/-- Takes a trap.  The lines that an interrupt served are acknowledged; a fault halts the hart. -/
def trap (hart : Hart H) (info : TrapInfo) : Except Fault TrapOutcome × Hart H :=
  let clock := hart.clock.advance hart.config.trapCycles
  let state : TrapState (InterruptController H) :=
    { dispatcher := hart.dispatcher
      context := TrapContext.capture hart.xregs hart.pc
      surroundings := hart.interrupts }
  match dispatch InterruptController.service info state with
  | (.ok outcome, state) =>
      let interrupts :=
        match outcome with
        | .interrupt serviced => state.surroundings.acknowledge serviced
        | .emulated _ _ => state.surroundings
      (.ok outcome,
        { hart with
          clock, interrupts
          dispatcher := state.dispatcher
          xregs := state.context.restored
          pc := state.context.pc })
  | (.error fault, state) =>
      (.error fault,
        { hart with
          clock
          dispatcher := state.dispatcher
          interrupts := state.surroundings
          halted := true })

def runDatapath (hart : Hart H) (word : Word) : Hart H :=
  let fields := InstructionFields.ofWord word
  let funct3 := fields.operationCode
  let funct7 := fields.variantCode
  match fields.class? with
  | some .vector =>
      hart.setVregs
        (hart.vregs.writeRegister fields.rd
          (hart.datapath.onVectors funct3 funct7
            (hart.vregs.readRegister fields.rs1) (hart.vregs.readRegister fields.rs2)))
  | _ =>
      { hart with
        xregs := hart.xregs.set fields.rd
          (hart.datapath funct3 funct7 (hart.xregs.get fields.rs1) (hart.xregs.get fields.rs2)) }

def retire (hart : Hart H) : Hart H :=
  { hart with
    clock := hart.clock.advance hart.config.opCycles
    pc := hart.pc + instructionBytes }

def step (hart : Hart H) (word : Word) : Except Fault StepAction × Hart H :=
  if hart.config.implements word then (.ok .hardware, (hart.runDatapath word).retire)
  else
    match hart.trap (TrapInfo.illegalInstruction word) with
    | (.ok outcome, hart) => (.ok (.trap outcome), hart)
    | (.error fault, hart) => (.error fault, hart)

/-- Carries out one instruction, after a due interrupt.  A halted hart refuses. -/
def execute (hart : Hart H) (word : Word) : Except Fault StepAction × Hart H :=
  if hart.halted then (.error .hartHalted, hart)
  else if hart.takesInterrupt then
    match hart.trap (TrapInfo.interrupt externalInterrupt) with
    | (.ok _, hart) => hart.step word
    | (.error fault, hart) => (.error fault, hart)
  else hart.step word

def run (hart : Hart H) : List Word → Except Fault Unit × Hart H
  | [] => (.ok (), hart)
  | word :: program =>
      match hart.execute word with
      | (.ok _, hart) => hart.run program
      | (.error fault, hart) => (.error fault, hart)

/-- Puts `a` and `b` into the source registers of an instruction, carries it out and returns what
its destination then holds.  Where both sources are one register, it holds `b`. -/
def emit (hart : Hart H) (word a b : Word) : Except Fault Word × Hart H :=
  let fields := InstructionFields.ofWord word
  let xregs := (hart.xregs.set fields.rs1 a).set fields.rs2 b
  match ({ hart with xregs } : Hart H).execute word with
  | (.ok _, hart) => (.ok (hart.xregs.get fields.rd), hart)
  | (.error fault, hart) => (.error fault, hart)

def emitVector (hart : Hart H) (word : Word) : Except Fault VectorWords × Hart H :=
  match hart.execute word with
  | (.ok _, hart) => (.ok (hart.vregs.readRegister (InstructionFields.ofWord word).rd), hart)
  | (.error fault, hart) => (.error fault, hart)

instance : Clocked (Hart H) where
  clock hart := hart.clock
  advance cycles hart := { hart with clock := hart.clock.advance cycles }

end Hart

end VectorBench
