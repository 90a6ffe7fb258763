import VectorBench.Hart.Basic
import VectorBench.Proofs.Trap.Dispatch

/-!
# What one instruction does to a hart

A live hart with an idle dispatcher serves a due interrupt, which leaves its
registers alone, and then carries the instruction out.  It does so in the
datapath, by emulation, or not at all, and what it leaves in the registers is
what a plain core leaves there.
-/

namespace VectorBench

theorem XRegFile.get_set {register : XReg} (file : XRegFile) (value : Word)
    (nonzero : register ≠ 0) :
    (file.set register value).get = Function.update file.get register value := by
  funext read
  by_cases same : read = register
  · subst same
    rw [Function.update_self, get_set_same file value nonzero]
  · rw [Function.update_of_ne same, get_set_of_ne file value (Ne.symm same)]

namespace Hart

variable {H : Type} {hart : Hart H} {word : Word} {kind : OpcodeClass}

/-- A hart that can go on: no trap was fatal and none is being handled.  The
trap handler of a hart always emulates with the software model. -/
structure Ready (hart : Hart H) : Prop where
  live : hart.halted = false
  idle : hart.dispatcher.state = .idle
  emulator : hart.dispatcher.emulator = Datapath.model

/-- What a trap hands to the dispatcher. -/
def trapState (hart : Hart H) : TrapState (InterruptController H) where
  dispatcher := hart.dispatcher
  context := TrapContext.capture hart.xregs hart.pc
  surroundings := hart.interrupts

theorem trap_emulated {info : TrapInfo} {instruction : DecodedInstruction}
    {result : OperationResult} {after : TrapState (InterruptController H)}
    (handled : dispatch InterruptController.service info hart.trapState =
      (.ok (.emulated instruction result), after)) :
    hart.trap info =
      (.ok (.emulated instruction result),
        { hart with
          clock := hart.clock.advance hart.config.trapCycles
          interrupts := after.surroundings
          dispatcher := after.dispatcher
          xregs := after.context.restored
          pc := after.context.pc }) := by
  unfold trapState at handled
  simp only [trap, handled]

theorem trap_interrupt (idle : hart.dispatcher.state = .idle) :
    hart.trap (TrapInfo.interrupt externalInterrupt) =
      (.ok (.interrupt hart.interrupts.service.1),
        { hart with
          clock := hart.clock.advance hart.config.trapCycles
          interrupts := hart.interrupts.service.2.acknowledge
            hart.interrupts.service.1 }) := by
  have legal :
      (TrapInfo.interrupt externalInterrupt).isIllegalInstruction = false := by
    decide
  have handled := dispatch_interrupt InterruptController.service
    (TrapInfo.interrupt externalInterrupt) hart.trapState idle legal
  unfold trapState at handled
  simp only [trap, handled, TrapContext.restored_capture]
  rfl

theorem trap_scalar (idle : hart.dispatcher.state = .idle)
    (selected : (InstructionFields.ofWord word).class? = some kind)
    (scalar : kind ≠ .vector) :
    hart.trap (TrapInfo.illegalInstruction word) =
      (.ok (.emulated
          (.resolved (TrapContext.capture hart.xregs hart.pc) word kind)
          (.word (hart.dispatcher.emulator.scalarResult word hart.xregs.get))),
        { hart with
          clock := hart.clock.advance hart.config.trapCycles
          dispatcher := hart.dispatcher.countEmulated
          xregs := hart.xregs.set (InstructionFields.ofWord word).rd
            (hart.dispatcher.emulator.scalarResult word hart.xregs.get)
          pc := hart.pc + instructionBytes }) := by
  have handled := dispatch_scalar InterruptController.service
    (TrapInfo.illegalInstruction word) hart.trapState idle rfl selected scalar
  rw [trap_emulated handled]
  simp only [trapState, TrapInfo.illegalInstruction,
    TrapContext.get_capture_eq, TrapContext.restored_advancePc,
    TrapContext.restored_set_capture, TrapContext.pc_advancePc,
    TrapContext.pc_set]
  rfl

theorem trap_vector (idle : hart.dispatcher.state = .idle)
    (selected : (InstructionFields.ofWord word).class? = some .vector) :
    hart.trap (TrapInfo.illegalInstruction word) =
      (.ok (.emulated
          (.resolved (TrapContext.capture hart.xregs hart.pc) word .vector)
          (.vector (hart.dispatcher.emulator.vectorResult word
            hart.vregs.readRegister))),
        { hart with
          clock := hart.clock.advance hart.config.trapCycles
          dispatcher := { hart.dispatcher with
            vregs := hart.vregs.writeRegister (InstructionFields.ofWord word).rd
              (hart.dispatcher.emulator.vectorResult word
                hart.vregs.readRegister) }.countEmulated
          pc := hart.pc + instructionBytes }) := by
  have handled := dispatch_vector InterruptController.service
    (TrapInfo.illegalInstruction word) hart.trapState idle rfl selected
  rw [trap_emulated handled]
  simp only [trapState, TrapInfo.illegalInstruction,
    TrapContext.restored_advancePc, TrapContext.restored_capture,
    TrapContext.pc_advancePc]
  rfl

theorem trap_unsupported (idle : hart.dispatcher.state = .idle)
    (selected : (InstructionFields.ofWord word).class? = none) :
    hart.trap (TrapInfo.illegalInstruction word) =
      (.error .unsupportedOpcode,
        { hart with
          clock := hart.clock.advance hart.config.trapCycles
          halted := true }) := by
  have handled := dispatch_unsupported InterruptController.service
    (TrapInfo.illegalInstruction word) hart.trapState idle rfl selected
  unfold trapState at handled
  simp only [trap, handled]

/-- The hart after an interrupt, if one is due. -/
def interrupted (hart : Hart H) : Hart H :=
  if hart.takesInterrupt then
    { hart with
      clock := hart.clock.advance hart.config.trapCycles
      interrupts := hart.interrupts.service.2.acknowledge
        hart.interrupts.service.1 }
  else hart

theorem execute_eq_step (live : hart.halted = false)
    (idle : hart.dispatcher.state = .idle) :
    hart.execute word = hart.interrupted.step word := by
  unfold execute interrupted
  rw [if_neg (by simp [live])]
  split
  case isTrue => rw [trap_interrupt idle]
  case isFalse => rfl

theorem interrupted_dispatcher (hart : Hart H) :
    hart.interrupted.dispatcher = hart.dispatcher := by
  unfold interrupted
  split <;> rfl

theorem interrupted_config (hart : Hart H) :
    hart.interrupted.config = hart.config := by
  unfold interrupted
  split <;> rfl

theorem interrupted_datapath (hart : Hart H) :
    hart.interrupted.datapath = hart.datapath := by
  unfold interrupted
  split <;> rfl

theorem interrupted_halted (hart : Hart H) :
    hart.interrupted.halted = hart.halted := by
  unfold interrupted
  split <;> rfl

theorem runDatapath_scalar
    (selected : (InstructionFields.ofWord word).class? = some kind)
    (scalar : kind ≠ .vector) :
    hart.runDatapath word =
      { hart with
        xregs := hart.xregs.set (InstructionFields.ofWord word).rd
          (hart.datapath.scalarResult word hart.xregs.get) } := by
  simp only [runDatapath, selected]
  cases kind with
  | vector => contradiction
  | load => rfl
  | store => rfl
  | scalar => rfl

theorem runDatapath_vector
    (selected : (InstructionFields.ofWord word).class? = some .vector) :
    hart.runDatapath word =
      hart.setVregs (hart.vregs.writeRegister (InstructionFields.ofWord word).rd
        (hart.datapath.vectorResult word hart.vregs.readRegister)) := by
  simp only [runDatapath, selected]
  rfl

/-- The datapath writes registers only. -/
theorem exists_runDatapath_eq (hart : Hart H) (word : Word) :
    ∃ xregs vregs,
      hart.runDatapath word =
        { hart with xregs, dispatcher := { hart.dispatcher with vregs } } := by
  simp only [runDatapath]
  split
  · exact ⟨_, _, rfl⟩
  · exact ⟨_, _, rfl⟩

theorem step_implemented (implemented : hart.config.implements word = true) :
    hart.step word = (.ok .hardware, (hart.runDatapath word).retire) := by
  unfold step
  rw [if_pos implemented]

theorem step_unimplemented
    (unimplemented : hart.config.implements word = false) :
    hart.step word =
      ((hart.trap (TrapInfo.illegalInstruction word)).1.map StepAction.trap,
        (hart.trap (TrapInfo.illegalInstruction word)).2) := by
  unfold step
  rw [if_neg (Bool.eq_false_iff.mp unimplemented)]
  cases hart.trap (TrapInfo.illegalInstruction word) with
  | mk result after => cases result <;> rfl

/-- The registers of a hart as a plain core. -/
def core (hart : Hart H) : PlainCore where
  xregs := hart.xregs.get
  vregs := hart.vregs.readRegister
  pc := hart.pc

theorem interrupted_core (hart : Hart H) :
    hart.interrupted.core = hart.core := by
  unfold interrupted
  split <;> rfl

theorem core_setX (hart : Hart H) (register : XReg) (value : Word) :
    ({ hart with xregs := hart.xregs.set register value } : Hart H).core =
      hart.core.setX register value := by
  unfold core PlainCore.setX
  by_cases zero : register = 0
  · rw [if_pos zero, zero, XRegFile.set_zero]
  · rw [if_neg zero, XRegFile.get_set _ _ zero]
    rfl

theorem core_eq_setX {before after : Hart H} {register : XReg} {value : Word}
    (xregs : after.xregs = before.xregs.set register value)
    (vregs : after.vregs = before.vregs)
    (pc : after.pc = before.pc + instructionBytes) :
    after.core = (before.core.setX register value).advance := by
  rw [← core_setX]
  unfold core PlainCore.advance
  rw [xregs, vregs, pc]
  rfl

theorem core_eq_setV {before after : Hart H} {register : VReg}
    {words : VectorWords}
    (xregs : after.xregs = before.xregs)
    (vregs : after.vregs = before.vregs.writeRegister register words)
    (pc : after.pc = before.pc + instructionBytes) :
    after.core = (before.core.setV register words).advance := by
  unfold core PlainCore.setV PlainCore.advance
  rw [xregs, vregs, pc, VRegFile.readRegister_writeRegister]
  rfl

/-- The datapath whose results a word gives: that of the hart for what it
implements, and that of the trap handler for the rest. -/
def datapathOf (hart : Hart H) (word : Word) : Datapath :=
  if hart.config.implements word then hart.datapath
  else hart.dispatcher.emulator

theorem datapathOf_eq_model (ready : hart.Ready)
    (modelled : hart.datapath = Datapath.model) (word : Word) :
    hart.datapathOf word = Datapath.model := by
  unfold datapathOf
  rw [modelled, ready.emulator, ite_self]

/-- What a hart is after an instruction that a plain core carries out. -/
structure Follows (before after : Hart H) (core : PlainCore) : Prop where
  core_eq : after.core = core
  ready : after.Ready
  datapath : after.datapath = before.datapath
  config : after.config = before.config

theorem step_scalar (ready : hart.Ready)
    (selected : (InstructionFields.ofWord word).class? = some kind)
    (scalar : kind ≠ .vector) :
    ∃ action after, hart.step word = (.ok action, after) ∧
      Follows hart after
        (hart.core.setX (InstructionFields.ofWord word).rd
          ((hart.datapathOf word).scalarResult word hart.core.xregs)).advance := by
  unfold step datapathOf
  by_cases implemented : hart.config.implements word = true
  · rw [if_pos implemented, if_pos implemented, runDatapath_scalar selected scalar]
    exact ⟨_, _, rfl, core_eq_setX rfl rfl rfl,
      ⟨ready.live, ready.idle, ready.emulator⟩, rfl, rfl⟩
  · rw [if_neg implemented, if_neg implemented,
      trap_scalar ready.idle selected scalar]
    exact ⟨_, _, rfl, core_eq_setX rfl rfl rfl,
      ⟨ready.live, ready.idle, ready.emulator⟩, rfl, rfl⟩

theorem step_vector (ready : hart.Ready)
    (selected : (InstructionFields.ofWord word).class? = some .vector) :
    ∃ action after, hart.step word = (.ok action, after) ∧
      Follows hart after
        (hart.core.setV (InstructionFields.ofWord word).rd
          ((hart.datapathOf word).vectorResult word hart.core.vregs)).advance := by
  unfold step datapathOf
  by_cases implemented : hart.config.implements word = true
  · rw [if_pos implemented, if_pos implemented, runDatapath_vector selected]
    exact ⟨_, _, rfl, core_eq_setV rfl rfl rfl,
      ⟨ready.live, ready.idle, ready.emulator⟩, rfl, rfl⟩
  · rw [if_neg implemented, if_neg implemented, trap_vector ready.idle selected]
    exact ⟨_, _, rfl, core_eq_setV rfl rfl rfl,
      ⟨ready.live, ready.idle, ready.emulator⟩, rfl, rfl⟩

theorem step_unsupported (idle : hart.dispatcher.state = .idle)
    (selected : (InstructionFields.ofWord word).class? = none) :
    hart.step word =
      (.error .unsupportedOpcode,
        { hart with
          clock := hart.clock.advance hart.config.trapCycles
          halted := true }) := by
  have unimplemented : hart.config.implements word = false := by
    simp only [HartConfig.implements, selected]
  simp only [step, unimplemented, Bool.false_eq_true, if_false,
    trap_unsupported idle selected]

theorem Ready.interrupted (ready : hart.Ready) : hart.interrupted.Ready where
  live := by rw [interrupted_halted, ready.live]
  idle := by rw [interrupted_dispatcher, ready.idle]
  emulator := by rw [interrupted_dispatcher, ready.emulator]

theorem interrupted_datapathOf (hart : Hart H) (word : Word) :
    hart.interrupted.datapathOf word = hart.datapathOf word := by
  unfold datapathOf
  rw [interrupted_config, interrupted_datapath, interrupted_dispatcher]

theorem Follows.of_interrupted {after : Hart H} {core : PlainCore}
    (follows : Follows hart.interrupted after core) : Follows hart after core where
  core_eq := follows.core_eq
  ready := follows.ready
  datapath := by rw [follows.datapath, interrupted_datapath]
  config := by rw [follows.config, interrupted_config]

/-- A ready hart carries out whatever the plain core does, and agrees with it
on the registers. -/
theorem execute_ok (ready : hart.Ready) {core : PlainCore}
    (stepped : hart.core.step (hart.datapathOf word) word = .ok core) :
    ∃ action after, hart.execute word = (.ok action, after) ∧
      Follows hart after core := by
  rw [execute_eq_step ready.live ready.idle]
  rw [← interrupted_core, ← interrupted_datapathOf] at stepped
  cases (InstructionFields.ofWord word).classCases with
  | unsupported selected =>
      rw [PlainCore.step_unsupported selected] at stepped
      contradiction
  | vector selected =>
      rw [PlainCore.step_vector _ _ selected] at stepped
      cases stepped
      obtain ⟨action, after, carried, follows⟩ :=
        step_vector ready.interrupted selected
      exact ⟨action, after, carried, follows.of_interrupted⟩
  | scalar kind scalar selected =>
      rw [PlainCore.step_scalar _ _ selected scalar] at stepped
      cases stepped
      obtain ⟨action, after, carried, follows⟩ :=
        step_scalar ready.interrupted selected scalar
      exact ⟨action, after, carried, follows.of_interrupted⟩

/-- A ready hart refuses whatever the plain core refuses, with its registers
as they were. -/
theorem execute_error (ready : hart.Ready) {datapath : Datapath} {fault : Fault}
    (refused : hart.core.step datapath word = .error fault) :
    ∃ after, hart.execute word = (.error fault, after) ∧
      after.core = hart.core := by
  rw [execute_eq_step ready.live ready.idle]
  cases (InstructionFields.ofWord word).classCases with
  | unsupported selected =>
      rw [PlainCore.step_unsupported selected] at refused
      cases refused
      exact ⟨_, step_unsupported ready.interrupted.idle selected,
        interrupted_core hart⟩
  | vector selected =>
      rw [PlainCore.step_vector _ _ selected] at refused
      contradiction
  | scalar kind scalar selected =>
      rw [PlainCore.step_scalar _ _ selected scalar] at refused
      contradiction

end Hart

end VectorBench
