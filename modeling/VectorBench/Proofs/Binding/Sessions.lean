import VectorBench.Binding.Hardware
import VectorBench.Binding.Software
import VectorBench.Proofs.Hart.Emit
import VectorBench.Proofs.Instruction.Encoding

/-!
# Sessions with a machine

A session is a sequence of calls of vector operations, and what it shows are
the answers and the vector registers after every call.  No session tells the
software binding from a hart that is reached through encoded instructions.
-/

namespace VectorBench

/-- One call of a machine with vector operations. -/
inductive VectorCall where
  | issue (opcode : Option OpcodeClass) (funct3 funct7 a b : Word)
  | scalarOp (funct3 funct7 a b : Word)
  | load (funct3 funct7 a b : Word)
  | store (funct3 funct7 a b : Word)
  | vectorVector (funct3 funct7 : Word) (vs1 vs2 vd : VReg)
  | writeRegister (register : VReg) (words : VectorWords)
  /-- Any other change of the vector registers. -/
  | edit (change : VRegFile → VRegFile)

/-- What a call returns. -/
inductive CallResult where
  | word (result : Except Fault Word)
  | vector (result : Except Fault VectorWords)
  | done

namespace VectorCall

/-- The codes of a call fit the fields of an instruction word. -/
def InRange : VectorCall → Prop
  | .issue _ funct3 funct7 _ _ | .scalarOp funct3 funct7 _ _
  | .load funct3 funct7 _ _ | .store funct3 funct7 _ _
  | .vectorVector funct3 funct7 _ _ _ => funct3 < 8 ∧ funct7 < 128
  | .writeRegister _ _ | .edit _ => True

instance : DecidablePred InRange
  | .issue _ funct3 funct7 _ _ | .scalarOp funct3 funct7 _ _
  | .load funct3 funct7 _ _ | .store funct3 funct7 _ _
  | .vectorVector funct3 funct7 _ _ _ =>
      inferInstanceAs (Decidable (funct3 < 8 ∧ funct7 < 128))
  | .writeRegister _ _ | .edit _ => inferInstanceAs (Decidable True)

variable {σ : Type} [VectorOps σ]

def perform (state : σ) : VectorCall → CallResult × σ
  | .issue opcode funct3 funct7 a b =>
      (VectorOps.issue opcode funct3 funct7 a b state).map .word id
  | .scalarOp funct3 funct7 a b =>
      (VectorOps.scalarOp funct3 funct7 a b state).map .word id
  | .load funct3 funct7 a b =>
      (VectorOps.load funct3 funct7 a b state).map .word id
  | .store funct3 funct7 a b =>
      (VectorOps.store funct3 funct7 a b state).map .word id
  | .vectorVector funct3 funct7 vs1 vs2 vd =>
      (VectorOps.vectorVector funct3 funct7 vs1 vs2 vd state).map .vector id
  | .writeRegister register words =>
      (.done, VectorOps.writeRegister register words state)
  | .edit change =>
      (.done, VectorOps.setVregs (change (VectorOps.vregs state)) state)

/-- What every call of a session returns and the vector registers after it. -/
def observations (state : σ) : List VectorCall → List (CallResult × VRegFile)
  | [] => []
  | call :: calls =>
      ((call.perform state).1, VectorOps.vregs (call.perform state).2) ::
        observations (call.perform state).2 calls

/-- The machine after a session. -/
def finish (state : σ) (calls : List VectorCall) : σ :=
  calls.foldl (fun state call => (call.perform state).2) state

end VectorCall

/-- A hart behind the hardware binding and a software binding that agree on
the vector registers and on the results of every word. -/
structure Agree {H : Type} (hardware : HardwareBinding (Hart H))
    (software : SoftwareBinding) : Prop where
  ready : hardware.emitter.Ready
  datapath : hardware.emitter.datapath = Datapath.model
  emulator : software.emulator = Datapath.model
  vregs : hardware.emitter.vregs = software.registers

namespace Agree

variable {H : Type} {hardware : HardwareBinding (Hart H)}
  {software : SoftwareBinding}

theorem of_follows (agree : Agree hardware software) {after : Hart H}
    {core : PlainCore} (follows : Hart.Follows hardware.emitter after core)
    {registers : VRegFile} (vregs : core.vregs = registers.readRegister) :
    Agree { emitter := after } { software with registers } where
  ready := follows.ready
  datapath := follows.datapath.trans agree.datapath
  emulator := agree.emulator
  vregs := VRegFile.eq_of_readRegister_eq
    ((congrArg PlainCore.vregs follows.core_eq).trans vregs)

end Agree

namespace Datapath

variable {opcode : OpcodeClass} {funct3 funct7 : Word} {rd rs1 rs2 : BitVec 5}
  {datapath : Datapath}

theorem scalarResult_encodeRegisters (operation : funct3 < 8)
    (variant : funct7 < 128) (xregs : XReg → Word) :
    datapath.scalarResult (encodeRegisters opcode funct3 funct7 rd rs1 rs2)
      xregs = datapath funct3 funct7 (xregs rs1) (xregs rs2) := by
  simp only [scalarResult, InstructionFields.rs1_encodeRegisters,
    InstructionFields.rs2_encodeRegisters,
    InstructionFields.operationCode_encodeRegisters operation,
    InstructionFields.variantCode_encodeRegisters variant]

theorem vectorResult_encodeRegisters (operation : funct3 < 8)
    (variant : funct7 < 128) (vregs : VReg → VectorWords) :
    datapath.vectorResult (encodeRegisters opcode funct3 funct7 rd rs1 rs2)
      vregs = datapath.onVectors funct3 funct7 (vregs rs1) (vregs rs2) := by
  simp only [vectorResult, InstructionFields.rs1_encodeRegisters,
    InstructionFields.rs2_encodeRegisters,
    InstructionFields.operationCode_encodeRegisters operation,
    InstructionFields.variantCode_encodeRegisters variant]

end Datapath

namespace HardwareBinding

variable {H : Type} {hart : Hart H} {funct3 funct7 : Word} {kind : OpcodeClass}

/-- A word on two operands is answered by the datapath that it comes to. -/
theorem emit_scalarWord_datapathOf (ready : hart.Ready)
    (scalar : kind ≠ .vector) (operation : funct3 < 8) (variant : funct7 < 128)
    (a b : Word) :
    ∃ core after,
      hart.emit (scalarWord kind funct3 funct7) a b =
        (.ok (hart.datapathOf (scalarWord kind funct3 funct7) funct3 funct7 a b),
          after) ∧
      Hart.Follows hart after core ∧ core.vregs = hart.vregs.readRegister := by
  have selected : (InstructionFields.ofWord
      (scalarWord kind funct3 funct7)).class? = some kind :=
    InstructionFields.class?_encodeRegisters
  obtain ⟨core, after, core_eq, emitted, follows⟩ :=
    Hart.emit_scalar ready a b selected scalar
  generalize hart.datapathOf (scalarWord kind funct3 funct7) = datapath
    at core_eq ⊢
  have firstNonzero : XReg.a0 ≠ 0 := by decide
  have secondNonzero : XReg.a1 ≠ 0 := by decide
  have apart : XReg.a0 ≠ XReg.a1 := by decide
  have loaded : hart.core.load (scalarWord kind funct3 funct7) a b =
      (hart.core.setX XReg.a0 a).setX XReg.a1 b := by
    unfold PlainCore.load scalarWord
    rw [InstructionFields.rs1_encodeRegisters,
      InstructionFields.rs2_encodeRegisters]
  have result : datapath.scalarResult (scalarWord kind funct3 funct7)
      ((hart.core.setX XReg.a0 a).setX XReg.a1 b).xregs =
        datapath funct3 funct7 a b := by
    unfold scalarWord
    rw [Datapath.scalarResult_encodeRegisters operation variant,
      PlainCore.xregs_setX_of_ne _ _ apart,
      PlainCore.xregs_setX_same _ _ firstNonzero,
      PlainCore.xregs_setX_same _ _ secondNonzero]
  have destination : (InstructionFields.ofWord
      (scalarWord kind funct3 funct7)).rd = XReg.a0 :=
    InstructionFields.rd_encodeRegisters
  rw [loaded, result, destination] at core_eq
  have answer : core.xregs XReg.a0 = datapath funct3 funct7 a b := by
    rw [core_eq]
    exact PlainCore.xregs_setX_same ((hart.core.setX XReg.a0 a).setX XReg.a1 b)
      (datapath funct3 funct7 a b) firstNonzero
  rw [destination, answer] at emitted
  refine ⟨core, after, emitted, follows, ?_⟩
  rw [core_eq]
  unfold PlainCore.advance
  rw [PlainCore.vregs_setX, PlainCore.vregs_setX, PlainCore.vregs_setX]
  rfl

theorem emit_scalarWord (ready : hart.Ready)
    (modelled : hart.datapath = Datapath.model) (scalar : kind ≠ .vector)
    (operation : funct3 < 8) (variant : funct7 < 128) (a b : Word) :
    ∃ core after,
      hart.emit (scalarWord kind funct3 funct7) a b =
        (.ok (Datapath.model funct3 funct7 a b), after) ∧
      Hart.Follows hart after core ∧ core.vregs = hart.vregs.readRegister := by
  rw [← Hart.datapathOf_eq_model ready modelled (scalarWord kind funct3 funct7)]
  exact emit_scalarWord_datapathOf ready scalar operation variant a b

/-- A word on two vector registers is answered by the datapath that it comes
to. -/
theorem emitVector_vectorWord_datapathOf (ready : hart.Ready)
    (operation : funct3 < 8) (variant : funct7 < 128) (vs1 vs2 vd : VReg) :
    let datapath := hart.datapathOf (vectorWord funct3 funct7 vs1 vs2 vd)
    let words := datapath.onVectors funct3 funct7
      (hart.vregs.readRegister vs1) (hart.vregs.readRegister vs2)
    ∃ core after,
      hart.emitVector (vectorWord funct3 funct7 vs1 vs2 vd) =
        (.ok words, after) ∧
      Hart.Follows hart after core ∧
      core.vregs = (hart.vregs.writeRegister vd words).readRegister := by
  intro datapath words
  have selected : (InstructionFields.ofWord
      (vectorWord funct3 funct7 vs1 vs2 vd)).class? = some .vector :=
    InstructionFields.class?_encodeRegisters
  obtain ⟨after, emitted, follows⟩ := Hart.emitVector_vector ready selected
  have result : datapath.vectorResult
      (vectorWord funct3 funct7 vs1 vs2 vd) hart.vregs.readRegister = words :=
    Datapath.vectorResult_encodeRegisters operation variant _
  have destination : (InstructionFields.ofWord
      (vectorWord funct3 funct7 vs1 vs2 vd)).rd = vd :=
    InstructionFields.rd_encodeRegisters
  rw [result] at emitted follows
  rw [destination] at follows
  refine ⟨_, after, emitted, follows, ?_⟩
  rw [VRegFile.readRegister_writeRegister]
  rfl

theorem emitVector_vectorWord (ready : hart.Ready)
    (modelled : hart.datapath = Datapath.model)
    (operation : funct3 < 8) (variant : funct7 < 128) (vs1 vs2 vd : VReg) :
    ∃ core after,
      hart.emitVector (vectorWord funct3 funct7 vs1 vs2 vd) =
        (.ok (Datapath.model.onVectors funct3 funct7
          (hart.vregs.readRegister vs1) (hart.vregs.readRegister vs2)), after) ∧
      Hart.Follows hart after core ∧
      core.vregs = (hart.vregs.writeRegister vd
        (Datapath.model.onVectors funct3 funct7
          (hart.vregs.readRegister vs1)
          (hart.vregs.readRegister vs2))).readRegister := by
  rw [← Hart.datapathOf_eq_model ready modelled
    (vectorWord funct3 funct7 vs1 vs2 vd)]
  exact emitVector_vectorWord_datapathOf ready operation variant vs1 vs2 vd

end HardwareBinding

theorem ne_vector_of_issuable {opcode : Option OpcodeClass} {kind : OpcodeClass}
    (issued : issuable opcode = .ok kind) : kind ≠ .vector := by
  unfold issuable at issued
  split at issued
  · split at issued
    case isTrue operands =>
      cases issued
      intro vector
      rw [vector] at operands
      contradiction
    case isFalse => contradiction
  · contradiction

namespace Agree

variable {H : Type} {hardware : HardwareBinding (Hart H)}
  {software : SoftwareBinding}

theorem issue (agree : Agree hardware software) (opcode : Option OpcodeClass)
    {funct3 funct7 : Word} (operation : funct3 < 8) (variant : funct7 < 128)
    (a b : Word) :
    (VectorOps.issue opcode funct3 funct7 a b hardware).1 =
        (VectorOps.issue opcode funct3 funct7 a b software).1 ∧
      Agree (VectorOps.issue opcode funct3 funct7 a b hardware).2
        (VectorOps.issue opcode funct3 funct7 a b software).2 := by
  cases issued : issuable opcode with
  | error fault =>
      simp only [VectorOps.issue, issued]
      exact ⟨rfl, agree⟩
  | ok kind =>
      have scalar := ne_vector_of_issuable issued
      obtain ⟨core, after, emitted, follows, vregs⟩ :=
        HardwareBinding.emit_scalarWord agree.ready agree.datapath scalar
          operation variant a b
      have related := agree.of_follows follows
        (vregs.trans (congrArg VRegFile.readRegister agree.vregs))
      simp only [VectorOps.issue, issued, HardwareBinding.lift,
        InstructionEmitter.emit, emitted, agree.emulator]
      exact ⟨rfl, related⟩

theorem vectorVector (agree : Agree hardware software) {funct3 funct7 : Word}
    (operation : funct3 < 8) (variant : funct7 < 128) (vs1 vs2 vd : VReg) :
    (VectorOps.vectorVector funct3 funct7 vs1 vs2 vd hardware).1 =
        (VectorOps.vectorVector funct3 funct7 vs1 vs2 vd software).1 ∧
      Agree (VectorOps.vectorVector funct3 funct7 vs1 vs2 vd hardware).2
        (VectorOps.vectorVector funct3 funct7 vs1 vs2 vd software).2 := by
  obtain ⟨core, after, emitted, follows, vregs⟩ :=
    HardwareBinding.emitVector_vectorWord agree.ready agree.datapath operation
      variant vs1 vs2 vd
  rw [agree.vregs] at emitted vregs
  have related := agree.of_follows follows vregs
  simp only [agree.emulator] at related
  simp only [VectorOps.vectorVector, HardwareBinding.lift,
    InstructionEmitter.emitVector, emitted, agree.emulator]
  exact ⟨trivial, related⟩

theorem setVregs (agree : Agree hardware software) (vregs : VRegFile) :
    Agree (VectorOps.setVregs vregs hardware)
      (VectorOps.setVregs vregs software) where
  ready := ⟨agree.ready.live, agree.ready.idle, agree.ready.emulator⟩
  datapath := agree.datapath
  emulator := agree.emulator
  vregs := rfl

/-- One call keeps the two bindings in agreement and is answered alike. -/
theorem perform (agree : Agree hardware software) {call : VectorCall}
    (fits : call.InRange) :
    (call.perform hardware).1 = (call.perform software).1 ∧
      Agree (call.perform hardware).2 (call.perform software).2 := by
  cases call with
  | issue opcode funct3 funct7 a b =>
      obtain ⟨same, related⟩ := agree.issue opcode fits.1 fits.2 a b
      exact ⟨congrArg CallResult.word same, related⟩
  | scalarOp funct3 funct7 a b =>
      obtain ⟨same, related⟩ := agree.issue (some .scalar) fits.1 fits.2 a b
      exact ⟨congrArg CallResult.word same, related⟩
  | load funct3 funct7 a b =>
      obtain ⟨same, related⟩ := agree.issue (some .load) fits.1 fits.2 a b
      exact ⟨congrArg CallResult.word same, related⟩
  | store funct3 funct7 a b =>
      obtain ⟨same, related⟩ := agree.issue (some .store) fits.1 fits.2 a b
      exact ⟨congrArg CallResult.word same, related⟩
  | vectorVector funct3 funct7 vs1 vs2 vd =>
      obtain ⟨same, related⟩ := agree.vectorVector fits.1 fits.2 vs1 vs2 vd
      exact ⟨congrArg CallResult.vector same, related⟩
  | writeRegister register words =>
      have related := agree.setVregs
        (hardware.emitter.vregs.writeRegister register words)
      refine ⟨rfl, ?_⟩
      rw [agree.vregs] at related
      simpa only [VectorCall.perform, VectorOps.writeRegister, VectorOps.vregs,
        InstructionEmitter.vregs, agree.vregs] using related
  | edit change =>
      have related := agree.setVregs (change hardware.emitter.vregs)
      rw [agree.vregs] at related
      refine ⟨rfl, ?_⟩
      simpa only [VectorCall.perform, VectorOps.vregs,
        InstructionEmitter.vregs, agree.vregs] using related

theorem observations (agree : Agree hardware software)
    {calls : List VectorCall} (fits : ∀ call ∈ calls, call.InRange) :
    VectorCall.observations hardware calls =
        VectorCall.observations software calls ∧
      Agree (VectorCall.finish hardware calls)
        (VectorCall.finish software calls) := by
  induction calls generalizing hardware software with
  | nil => exact ⟨rfl, agree⟩
  | cons call calls induction =>
      obtain ⟨same, related⟩ := agree.perform (fits call List.mem_cons_self)
      obtain ⟨rest, final⟩ := induction related
        (fun later member => fits later (List.mem_cons_of_mem call member))
      refine ⟨?_, final⟩
      simp only [VectorCall.observations]
      rw [same, rest]
      congr 2
      exact related.vregs

end Agree

/-- A fresh hart with the software model as its datapath, in any interrupt
setup, answers every session like the software binding, shows the same vector
registers after every call, and is still running at the end. -/
theorem hardware_observations_eq_software {H : Type} (clock : Clock)
    (config : HartConfig) (interrupts : InterruptController H)
    (interruptsEnabled : Bool) {calls : List VectorCall}
    (fits : ∀ call ∈ calls, call.InRange) :
    let hardware : HardwareBinding (Hart H) :=
      { emitter :=
          { (Hart.initial clock config Datapath.model : Hart H) with
            interrupts, interruptsEnabled } }
    let software := SoftwareBinding.initial Datapath.model
    VectorCall.observations hardware calls =
        VectorCall.observations software calls ∧
      (VectorCall.finish hardware calls).emitter.halted = false := by
  intro hardware software
  have agree : Agree hardware software :=
    { ready := ⟨rfl, rfl, rfl⟩, datapath := rfl, emulator := rfl, vregs := rfl }
  obtain ⟨same, final⟩ := agree.observations fits
  exact ⟨same, final.ready.live⟩

/-- Three calls that take a trap on the hart, the first of them after an
interrupt. -/
def trappingCalls : List VectorCall :=
  [.issue none 0 0 1 2, .store 7 2 0x01020304 0x10101010,
    .vectorVector 1 0 3 3 3]

theorem hardware_observations_eq_software_trapping :
    (∀ call ∈ trappingCalls, call.InRange) ∧
    VectorCall.observations
        ({ emitter :=
            { (Hart.initial Clock.zero {} Datapath.model : Hart Unit) with
              interrupts := (InterruptController.initial.register 4 ()).raise 4
              interruptsEnabled := true } } : HardwareBinding (Hart Unit))
        trappingCalls =
      VectorCall.observations (SoftwareBinding.initial Datapath.model)
        trappingCalls := by
  have fits : ∀ call ∈ trappingCalls, call.InRange := by decide
  exact ⟨fits, (hardware_observations_eq_software Clock.zero {}
    ((InterruptController.initial.register 4 ()).raise 4) true fits).1⟩

end VectorBench
