import VectorBench.Binding.Hardware
import VectorBench.Proofs.Hart.Emit
import VectorBench.Proofs.Hart.FatalTraps
import VectorBench.Proofs.Instruction.Encoding

/-!
# Failing calls of a hart

The operands of a call are in the source registers before its instruction is
tried, and a failure leaves them there.  Every other register and the program
counter are what they were.
-/

namespace VectorBench

theorem XRegFile.get_set_self (file : XRegFile) (register : XReg)
    (value : Word) :
    (file.set register value).get register =
      if register = 0 then 0 else value := by
  split
  case isTrue zero => rw [zero, get_zero]
  case isFalse nonzero => exact get_set_same file value nonzero

namespace Hart

variable {H : Type} {hart after : Hart H} {word : Word} {fault : Fault}

/-- The operands are in two source registers, the second one where both are
one register.  The program counter and the other registers have not changed. -/
structure LoadsOnly (before after : Hart H) (rs1 rs2 : XReg) (a b : Word) :
    Prop where
  pc : after.pc = before.pc
  others : ∀ register, register ≠ rs1 → register ≠ rs2 →
    after.xregs.get register = before.xregs.get register
  first : rs1 ≠ rs2 → after.xregs.get rs1 = if rs1 = 0 then 0 else a
  second : after.xregs.get rs2 = if rs2 = 0 then 0 else b

theorem loadsOnly_loaded (hart : Hart H) (word a b : Word) :
    hart.LoadsOnly (hart.loaded word a b) (InstructionFields.ofWord word).rs1
      (InstructionFields.ofWord word).rs2 a b where
  pc := rfl
  others := by
    intro register notFirst notSecond
    exact (XRegFile.get_set_of_ne _ b (Ne.symm notSecond)).trans
      (XRegFile.get_set_of_ne _ a (Ne.symm notFirst))
  first := by
    intro apart
    exact (XRegFile.get_set_of_ne _ b (Ne.symm apart)).trans
      (XRegFile.get_set_self _ _ a)
  second := XRegFile.get_set_self _ _ b

theorem LoadsOnly.untouched {before middle : Hart H} {rs1 rs2 : XReg}
    {a b : Word} (loads : before.LoadsOnly middle rs1 rs2 a b)
    (untouched : middle.Untouched after) :
    before.LoadsOnly after rs1 rs2 a b where
  pc := untouched.pc.trans loads.pc
  others := by rw [untouched.xregs]; exact loads.others
  first := by rw [untouched.xregs]; exact loads.first
  second := by rw [untouched.xregs]; exact loads.second

theorem emit_error {a b : Word}
    (failed : hart.emit word a b = (.error fault, after)) :
    hart.LoadsOnly after (InstructionFields.ofWord word).rs1
      (InstructionFields.ofWord word).rs2 a b := by
  cases executed : (hart.loaded word a b).execute word with
  | mk result stopped =>
      unfold loaded at executed
      simp only [emit, executed] at failed
      cases result with
      | ok action => cases failed
      | error refusal =>
          cases failed
          exact (loadsOnly_loaded hart word a b).untouched
            (execute_error_untouched executed).1

end Hart

namespace HardwareBinding

variable {H : Type} {hart : Hart H} {opcode : Option OpcodeClass}
  {funct3 funct7 a b : Word} {fault : Fault} {after : HardwareBinding (Hart H)}

theorem issue_error_issuable {kind : OpcodeClass}
    (issued : issuable opcode = .ok kind)
    (failed : VectorOps.issue opcode funct3 funct7 a b
      ({ emitter := hart } : HardwareBinding (Hart H)) = (.error fault, after)) :
    hart.LoadsOnly after.emitter XReg.a0 XReg.a1 a b := by
  simp only [VectorOps.issue, issued, lift, InstructionEmitter.emit,
    Prod.mk.injEq] at failed
  obtain ⟨answer, rfl⟩ := failed
  have emitted : hart.emit (scalarWord kind funct3 funct7) a b =
      (.error fault, (hart.emit (scalarWord kind funct3 funct7) a b).2) :=
    Prod.ext answer rfl
  have loads := Hart.emit_error emitted
  unfold scalarWord at loads
  rw [InstructionFields.rs1_encodeRegisters,
    InstructionFields.rs2_encodeRegisters] at loads
  exact loads

theorem issue_refused {refusal : Fault}
    (refused : issuable opcode = .error refusal)
    (binding : HardwareBinding (Hart H)) :
    VectorOps.issue opcode funct3 funct7 a b binding =
      (.error refusal, binding) := by
  simp only [VectorOps.issue, refused]

end HardwareBinding

/-- A failing call of a hart leaves the program counter and all registers but
the two source registers as they were, and those hold the operands.  Behind the
hardware binding the source registers are the argument registers, and a class
without scalar operands changes nothing. -/
theorem failed_call_loads_operands {H : Type} (hart : Hart H) (a b : Word) :
    (∀ word fault after, hart.emit word a b = (.error fault, after) →
      hart.LoadsOnly after (InstructionFields.ofWord word).rs1
        (InstructionFields.ofWord word).rs2 a b) ∧
    ∀ opcode funct3 funct7 fault (after : HardwareBinding (Hart H)),
      VectorOps.issue opcode funct3 funct7 a b
          ({ emitter := hart } : HardwareBinding (Hart H)) =
        (.error fault, after) →
      match issuable opcode with
      | .ok _ => hart.LoadsOnly after.emitter XReg.a0 XReg.a1 a b
      | .error _ => after = { emitter := hart } := by
  refine ⟨fun _ _ _ => Hart.emit_error, ?_⟩
  intro opcode funct3 funct7 fault after failed
  cases issued : issuable opcode with
  | ok kind => exact HardwareBinding.issue_error_issuable issued failed
  | error refusal =>
      rw [HardwareBinding.issue_refused issued] at failed
      cases failed
      rfl

/-- A hart that stopped at a word of no vector class with five and six as its
operands. -/
def stoppedWithOperands : Hart Unit :=
  ((Hart.initial Clock.zero {} Datapath.model : Hart Unit).emit
    0x003100b3 5 6).2

theorem failed_call_loads_operands_stopped :
    stoppedWithOperands.LoadsOnly
        (stoppedWithOperands.emit 0x00b5055b 7 9).2 10 11 7 9 ∧
      stoppedWithOperands.LoadsOnly
        (VectorOps.issue (some .store) 0 0 7 9
          ({ emitter := stoppedWithOperands } :
            HardwareBinding (Hart Unit))).2.emitter XReg.a0 XReg.a1 7 9 := by
  obtain ⟨emits, issues⟩ :=
    failed_call_loads_operands stoppedWithOperands 7 9
  exact ⟨emits 0x00b5055b .hartHalted _ rfl,
    issues (some .store) 0 0 .hartHalted _ rfl⟩

/-- A failing call does not always leave the registers as they were. -/
theorem not_every_failed_call_keeps_registers :
    ¬ ∀ (hart : Hart Unit) (word a b : Word) (fault : Fault) (after : Hart Unit),
      hart.emit word a b = (.error fault, after) →
      after.xregs = hart.xregs ∧ after.pc = hart.pc := by
  intro kept
  have same : stoppedWithOperands.xregs = XRegFile.zeroed :=
    (kept (Hart.initial Clock.zero {} Datapath.model) 0x003100b3 5 6
      .unsupportedOpcode stoppedWithOperands rfl).1
  have loaded : stoppedWithOperands.xregs.get 2 = 5 := rfl
  rw [same] at loaded
  exact absurd loaded (by decide)

end VectorBench
