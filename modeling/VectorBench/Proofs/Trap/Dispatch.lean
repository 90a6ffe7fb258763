import VectorBench.Proofs.Hart.PlainCore
import VectorBench.Trap.Dispatcher

/-!
# Traps that an idle dispatcher handles

Every trap that reaches an idle dispatcher has one of four endings: the word
is emulated on the saved registers, it is emulated on the vector registers, it
is outside the opcode classes, or the interrupt service runs.
-/

namespace VectorBench

theorem VRegFile.readRegister_writeRegister (file : VRegFile) (register : VReg)
    (words : VectorWords) :
    (file.writeRegister register words).readRegister =
      Function.update file.readRegister register words := by
  funext read
  apply Vector.ext
  intro lane inside
  rw [getElem_readRegister]
  by_cases same : read = register
  · subst same
    rw [Function.update_self, readWord_writeRegister_same file _ words inside]
  · rw [Function.update_of_ne same, getElem_readRegister,
      readWord_writeRegister_of_ne file words (Ne.symm same)]

theorem VRegFile.eq_of_readRegister_eq {left right : VRegFile}
    (same : left.readRegister = right.readRegister) : left = right := by
  apply eq_of_readWord_eq
  intro register lane inside
  rw [← getElem_readRegister _ _ _ inside, same, getElem_readRegister]

namespace TrapContext

theorem get_capture_eq (file : XRegFile) (pc : Word) :
    (capture file pc).get = file.get := by
  funext register
  exact get_capture file pc register

theorem pc_set (context : TrapContext) (register : XReg) (value : Word) :
    (context.set register value).pc = context.pc := by
  unfold set
  split <;> rfl

theorem pc_advancePc (context : TrapContext) :
    context.advancePc.pc = context.pc + instructionBytes :=
  rfl

theorem restored_advancePc (context : TrapContext) :
    context.advancePc.restored = context.restored :=
  rfl

theorem restored_set (context : TrapContext) (register : XReg) (value : Word) :
    (context.set register value).restored =
      context.restored.set register value := by
  by_cases zero : register = 0
  · rw [set, if_pos zero, zero, XRegFile.set_zero]
  · have positive : register.toNat ≠ 0 := fun none =>
      zero (BitVec.eq_of_toNat_eq none)
    simp only [set, if_neg zero, restored, XRegFile.ofSnapshot, XRegFile.set,
      dif_neg zero, XRegFile.mk.injEq]
    exact Vector.set_comm _ _ positive

theorem restored_set_capture (file : XRegFile) (pc : Word) (register : XReg)
    (value : Word) :
    ((capture file pc).set register value).restored = file.set register value := by
  rw [restored_set, restored_capture]

end TrapContext

/-- A word of a class together with the operands that a context gives it. -/
def DecodedInstruction.resolved (context : TrapContext) (word : Word)
    (kind : OpcodeClass) : DecodedInstruction where
  opcode := kind
  fields := InstructionFields.ofWord word
  operands := Operands.resolve context (InstructionFields.ofWord word) kind

variable {σ : Type} {dispatcher : Dispatcher} {context : TrapContext}
  {word : Word} {kind : OpcodeClass}

theorem decode_of_class
    (selected : (InstructionFields.ofWord word).class? = some kind) :
    decode word context = .ok (.resolved context word kind) := by
  simp only [decode, selected]
  rfl

theorem decode_unsupported
    (selected : (InstructionFields.ofWord word).class? = none) :
    decode word context = .error .unsupportedOpcode := by
  simp only [decode, selected]

theorem Operands.resolve_scalar {fields : InstructionFields}
    (scalar : kind ≠ .vector) :
    Operands.resolve context fields kind =
      .scalar (context.get fields.rs1) (context.get fields.rs2) fields.rd := by
  cases kind with
  | vector => contradiction
  | load => rfl
  | store => rfl
  | scalar => rfl

namespace Dispatcher

theorem emulate_scalar
    (selected : (InstructionFields.ofWord word).class? = some kind)
    (scalar : kind ≠ .vector) :
    dispatcher.emulate context word =
      .ok (.emulated (.resolved context word kind)
          (.word (dispatcher.emulator.scalarResult word context.get)),
        dispatcher.countEmulated,
        (context.set (InstructionFields.ofWord word).rd
          (dispatcher.emulator.scalarResult word context.get)).advancePc) := by
  have operands :
      (DecodedInstruction.resolved context word kind).operands =
        .scalar (context.get (InstructionFields.ofWord word).rs1)
          (context.get (InstructionFields.ofWord word).rs2)
          (InstructionFields.ofWord word).rd :=
    Operands.resolve_scalar scalar
  simp only [emulate, decode_of_class selected, operands]
  rfl

theorem emulate_vector
    (selected : (InstructionFields.ofWord word).class? = some .vector) :
    dispatcher.emulate context word =
      .ok (.emulated (.resolved context word .vector)
          (.vector (dispatcher.emulator.vectorResult word
            dispatcher.vregs.readRegister)),
        { dispatcher with
          vregs := dispatcher.vregs.writeRegister
            (InstructionFields.ofWord word).rd
            (dispatcher.emulator.vectorResult word
              dispatcher.vregs.readRegister) }.countEmulated,
        context.advancePc) := by
  simp only [emulate, decode_of_class selected]
  rfl

theorem emulate_unsupported
    (selected : (InstructionFields.ofWord word).class? = none) :
    dispatcher.emulate context word = .error .unsupportedOpcode := by
  simp only [emulate, decode_unsupported selected]

theorem enter_idle (idle : dispatcher.state = .idle) :
    dispatcher.enter = (.ok (), { dispatcher with state := .handling }) := by
  simp only [enter, idle]

end Dispatcher

theorem dispatch_scalar (service : σ → Word × σ) (info : TrapInfo)
    (state : TrapState σ) (idle : state.dispatcher.state = .idle)
    (illegal : info.isIllegalInstruction = true)
    (selected : (InstructionFields.ofWord info.mtval).class? = some kind)
    (scalar : kind ≠ .vector) :
    dispatch service info state =
      (.ok (.emulated (.resolved state.context info.mtval kind)
          (.word (state.dispatcher.emulator.scalarResult info.mtval
            state.context.get))),
        { state with
          dispatcher := state.dispatcher.countEmulated
          context := (state.context.set (InstructionFields.ofWord info.mtval).rd
            (state.dispatcher.emulator.scalarResult info.mtval
              state.context.get)).advancePc }) := by
  simp only [dispatch, Dispatcher.enter_idle idle, illegal, if_true,
    Dispatcher.emulate_scalar selected scalar, Dispatcher.exit,
    Dispatcher.countEmulated, ← idle]

theorem dispatch_vector (service : σ → Word × σ) (info : TrapInfo)
    (state : TrapState σ) (idle : state.dispatcher.state = .idle)
    (illegal : info.isIllegalInstruction = true)
    (selected : (InstructionFields.ofWord info.mtval).class? = some .vector) :
    dispatch service info state =
      (.ok (.emulated (.resolved state.context info.mtval .vector)
          (.vector (state.dispatcher.emulator.vectorResult info.mtval
            state.dispatcher.vregs.readRegister))),
        { state with
          dispatcher := { state.dispatcher with
            vregs := state.dispatcher.vregs.writeRegister
              (InstructionFields.ofWord info.mtval).rd
              (state.dispatcher.emulator.vectorResult info.mtval
                state.dispatcher.vregs.readRegister) }.countEmulated
          context := state.context.advancePc }) := by
  simp only [dispatch, Dispatcher.enter_idle idle, illegal, if_true,
    Dispatcher.emulate_vector selected, Dispatcher.exit,
    Dispatcher.countEmulated, ← idle]

theorem dispatch_unsupported (service : σ → Word × σ) (info : TrapInfo)
    (state : TrapState σ) (idle : state.dispatcher.state = .idle)
    (illegal : info.isIllegalInstruction = true)
    (selected : (InstructionFields.ofWord info.mtval).class? = none) :
    dispatch service info state = (.error .unsupportedOpcode, state) := by
  simp only [dispatch, Dispatcher.enter_idle idle, illegal, if_true,
    Dispatcher.emulate_unsupported selected, Dispatcher.exit, ← idle]

theorem dispatch_interrupt (service : σ → Word × σ) (info : TrapInfo)
    (state : TrapState σ) (idle : state.dispatcher.state = .idle)
    (legal : info.isIllegalInstruction = false) :
    dispatch service info state =
      (.ok (.interrupt (service state.surroundings).1),
        { state with surroundings := (service state.surroundings).2 }) := by
  simp only [dispatch, Dispatcher.enter_idle idle, legal, Bool.false_eq_true,
    if_false, Dispatcher.exit, ← idle]

theorem dispatch_emulator (service : σ → Word × σ) (info : TrapInfo)
    (state : TrapState σ) :
    (dispatch service info state).2.dispatcher.emulator =
      state.dispatcher.emulator := by
  cases busy : state.dispatcher.state with
  | handling => simp only [dispatch, Dispatcher.enter, busy]
  | idle =>
      cases illegal : info.isIllegalInstruction with
      | false => rw [dispatch_interrupt service info state busy illegal]
      | true =>
          cases (InstructionFields.ofWord info.mtval).classCases with
          | unsupported selected =>
              rw [dispatch_unsupported service info state busy illegal selected]
          | vector selected =>
              rw [dispatch_vector service info state busy illegal selected]
              rfl
          | scalar kind scalar selected =>
              rw [dispatch_scalar service info state busy illegal selected
                scalar]
              rfl

/-- A refused trap leaves an idle dispatcher and all else as it was. -/
theorem dispatch_error {service : σ → Word × σ} {info : TrapInfo}
    {state after : TrapState σ} {fault : Fault}
    (refused : dispatch service info state = (.error fault, after)) :
    after = { state with dispatcher := state.dispatcher.exit } ∧
      (fault = .nestedTrap ∨ fault = .unsupportedOpcode) := by
  cases busy : state.dispatcher.state with
  | handling =>
      simp only [dispatch, Dispatcher.enter, busy] at refused
      cases refused
      exact ⟨rfl, .inl rfl⟩
  | idle =>
      have stays : state.dispatcher.exit = state.dispatcher := by
        simp only [Dispatcher.exit, ← busy]
      cases illegal : info.isIllegalInstruction with
      | false =>
          rw [dispatch_interrupt service info state busy illegal] at refused
          cases refused
      | true =>
          cases (InstructionFields.ofWord info.mtval).classCases with
          | unsupported selected =>
              rw [dispatch_unsupported service info state busy illegal
                selected] at refused
              cases refused
              exact ⟨by rw [stays], .inr rfl⟩
          | vector selected =>
              rw [dispatch_vector service info state busy illegal
                selected] at refused
              cases refused
          | scalar kind scalar selected =>
              rw [dispatch_scalar service info state busy illegal selected
                scalar] at refused
              cases refused

end VectorBench
