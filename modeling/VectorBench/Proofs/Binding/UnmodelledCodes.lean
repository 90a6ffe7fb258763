import Mathlib.Algebra.Group.Nat.Defs
import VectorBench.Proofs.Binding.Sessions
import VectorBench.Proofs.Datapath.Lanes

/-!
# Codes without a model

The software binding answers zero for every pair of codes that selects no
operation.  The hardware binding cuts codes to the fields of a word before
anybody looks at them, so it answers for the pair that is left, and that pair
may select an operation.
-/

namespace VectorBench

namespace Datapath

variable {funct3 funct7 : Word}

theorem model_of_unsupported (unsupported : isSupported funct3 funct7 = false)
    (a b : Word) : model funct3 funct7 a b = sentinel := by
  have unselected : model? funct3 funct7 a b = none := by
    rw [← Option.not_isSome_iff_eq_none, isSome_model?, unsupported]
    exact Bool.false_ne_true
  unfold model
  rw [unselected]
  rfl

theorem onVectors_of_unsupported
    (unsupported : isSupported funct3 funct7 = false)
    (left right : VectorWords) :
    model.onVectors funct3 funct7 left right = Vector.replicate 4 sentinel := by
  apply Vector.ext
  intro lane inside
  simp only [onVectors, Vector.getElem_zipWith, Vector.getElem_replicate,
    model_of_unsupported unsupported]

/-- Every operation has operands with a result other than zero. -/
theorem exists_model_ne_sentinel
    (supported : isSupported funct3 funct7 = true) :
    ∃ a b, model funct3 funct7 a b ≠ sentinel := by
  obtain ⟨operation, width, rfl, rfl⟩ := isSupported_iff_exists.mp supported
  simp only [model_eq_lanewise]
  cases operation with
  | sub | xor => exact ⟨1, 0, by cases width <;> decide⟩
  | add | and | or | minu | maxu | mul =>
      exact ⟨1, 1, by cases width <;> decide⟩

end Datapath

/-- The low bits of a code survive a remainder by a multiple of their power of
two. -/
theorem setWidth_mod {width : Nat} (code modulus : Word)
    (divides : 2 ^ width ∣ modulus.toNat) :
    (code % modulus).setWidth width = code.setWidth width := by
  apply BitVec.eq_of_toNat_eq
  simp only [BitVec.toNat_setWidth, BitVec.toNat_umod]
  exact Nat.mod_mod_of_dvd code.toNat divides

theorem encodeRegisters_mod (opcode : OpcodeClass) (funct3 funct7 : Word)
    (rd rs1 rs2 : BitVec 5) :
    encodeRegisters opcode (funct3 % 8) (funct7 % 128) rd rs1 rs2 =
      encodeRegisters opcode funct3 funct7 rd rs1 rs2 := by
  unfold encodeRegisters encode InstructionFields.ofNumbers
  rw [setWidth_mod funct3 8 (by decide), setWidth_mod funct7 128 (by decide)]

theorem issuable_of_ne_vector {kind : OpcodeClass} (scalar : kind ≠ .vector) :
    issuable (some kind) = .ok kind := by
  cases kind with
  | vector => contradiction
  | load | store | scalar => rfl

namespace HardwareBinding

variable {H : Type} {hart : Hart H} {kind : OpcodeClass}

/-- The hardware binding carries out the operation that the codes select once
they are cut to their fields. -/
theorem issue_cut (ready : hart.Ready)
    (modelled : hart.datapath = Datapath.model) (scalar : kind ≠ .vector)
    (funct3 funct7 a b : Word) :
    (VectorOps.issue (some kind) funct3 funct7 a b
      ({ emitter := hart } : HardwareBinding (Hart H))).1 =
      .ok (Datapath.model (funct3 % 8) (funct7 % 128) a b) := by
  obtain ⟨_, after, emitted, _, _⟩ :=
    emit_scalarWord ready modelled scalar
      (BitVec.umod_lt funct3 (by decide : (0 : Word) < 8))
      (BitVec.umod_lt funct7 (by decide : (0 : Word) < 128)) a b
  -- Cut codes encode to the same word, so its fields are all that is seen.
  unfold scalarWord at emitted
  rw [encodeRegisters_mod] at emitted
  simp only [VectorOps.issue, issuable_of_ne_vector scalar, lift,
    InstructionEmitter.emit, scalarWord, emitted]

theorem vectorVector_cut (ready : hart.Ready)
    (modelled : hart.datapath = Datapath.model) (funct3 funct7 : Word)
    (vs1 vs2 vd : VReg) :
    (VectorOps.vectorVector funct3 funct7 vs1 vs2 vd
      ({ emitter := hart } : HardwareBinding (Hart H))).1 =
      .ok (Datapath.model.onVectors (funct3 % 8) (funct7 % 128)
        (hart.vregs.readRegister vs1) (hart.vregs.readRegister vs2)) := by
  obtain ⟨_, after, emitted, _, _⟩ :=
    emitVector_vectorWord ready modelled
      (BitVec.umod_lt funct3 (by decide : (0 : Word) < 8))
      (BitVec.umod_lt funct7 (by decide : (0 : Word) < 128)) vs1 vs2 vd
  unfold vectorWord at emitted
  rw [encodeRegisters_mod] at emitted
  simp only [VectorOps.vectorVector, lift, InstructionEmitter.emitVector,
    vectorWord, emitted]

end HardwareBinding

/-- For codes without a model the software binding answers zero.  The hardware
binding does so too unless the codes, cut to their fields, select an operation:
then it carries that operation out, and for some operands this shows. -/
theorem unmodelled_codes_answered {H : Type} {hart : Hart H}
    (ready : hart.Ready) (modelled : hart.datapath = Datapath.model)
    (registers : VRegFile) {funct3 funct7 : Word}
    (unmodelled : Datapath.isSupported funct3 funct7 = false) :
    let hardware : HardwareBinding (Hart H) := { emitter := hart }
    let software : SoftwareBinding := { emulator := Datapath.model, registers }
    let selects := Datapath.isSupported (funct3 % 8) (funct7 % 128)
    (∀ kind a b, kind ≠ .vector →
      (VectorOps.issue (some kind) funct3 funct7 a b software).1 = .ok 0 ∧
      (VectorOps.issue (some kind) funct3 funct7 a b hardware).1 =
        .ok (if selects then Datapath.model (funct3 % 8) (funct7 % 128) a b
          else 0)) ∧
    (∀ vs1 vs2 vd,
      (VectorOps.vectorVector funct3 funct7 vs1 vs2 vd software).1 =
        .ok (Vector.replicate 4 0) ∧
      (VectorOps.vectorVector funct3 funct7 vs1 vs2 vd hardware).1 =
        .ok (if selects then
          Datapath.model.onVectors (funct3 % 8) (funct7 % 128)
            (hart.vregs.readRegister vs1) (hart.vregs.readRegister vs2)
          else Vector.replicate 4 0)) ∧
    (selects = true →
      ∃ a b, Datapath.model (funct3 % 8) (funct7 % 128) a b ≠ 0) := by
  intro hardware software selects
  refine ⟨?_, ?_, Datapath.exists_model_ne_sentinel⟩
  · intro kind a b scalar
    constructor
    · simp only [VectorOps.issue, issuable_of_ne_vector scalar, Except.map,
        software, Datapath.model_of_unsupported unmodelled]
      rfl
    · rw [HardwareBinding.issue_cut ready modelled scalar]
      split
      case isTrue => rfl
      case isFalse unselected =>
        rw [Datapath.model_of_unsupported (Bool.eq_false_iff.mpr unselected)]
        rfl
  · intro vs1 vs2 vd
    constructor
    · simp only [VectorOps.vectorVector, software,
        Datapath.onVectors_of_unsupported unmodelled]
      rfl
    · rw [HardwareBinding.vectorVector_cut ready modelled]
      split
      case isTrue => rfl
      case isFalse unselected =>
        rw [Datapath.onVectors_of_unsupported
          (Bool.eq_false_iff.mpr unselected)]
        rfl

/-- A fresh hart behind the hardware binding. -/
def freshHardware : HardwareBinding (Hart Unit) where
  emitter := Hart.initial Clock.zero {} Datapath.model

/-- Codes past their fields that come back as an addition, and ones that select
nothing either way. -/
theorem unmodelled_codes_answered_fresh :
    Datapath.isSupported 8 128 = false ∧ Datapath.isSupported 0 3 = false ∧
    (VectorOps.issue (some .load) 8 128 1 2 freshHardware).1 = .ok 3 ∧
    (VectorOps.issue (some .load) 0 3 1 2 freshHardware).1 = .ok 0 ∧
    (VectorOps.issue (some .load) 8 128 1 2
      (SoftwareBinding.initial Datapath.model)).1 = .ok 0 ∧
    ∃ a b, Datapath.model (8 % 8) (128 % 128) a b ≠ 0 := by
  have wide := unmodelled_codes_answered
    (⟨rfl, rfl, rfl⟩ : freshHardware.emitter.Ready) rfl VRegFile.zeroed
    (by decide : Datapath.isSupported 8 128 = false)
  have narrow := unmodelled_codes_answered
    (⟨rfl, rfl, rfl⟩ : freshHardware.emitter.Ready) rfl VRegFile.zeroed
    (by decide : Datapath.isSupported 0 3 = false)
  have scalar : OpcodeClass.load ≠ .vector := by decide
  exact ⟨by decide, by decide, (wide.1 .load 1 2 scalar).2.trans rfl,
    (narrow.1 .load 1 2 scalar).2, (wide.1 .load 1 2 scalar).1,
    wide.2.2 rfl⟩

/-- Not every pair of codes without a model is answered with zero. -/
theorem not_every_unmodelled_code_answered_zero :
    ¬ ∀ funct3 funct7 a b, Datapath.isSupported funct3 funct7 = false →
      (VectorOps.issue (some .scalar) funct3 funct7 a b freshHardware).1 =
        .ok 0 := by
  intro answered
  have sum : (VectorOps.issue (some .scalar) 8 0 1 2 freshHardware).1 = .ok 3 :=
    rfl
  rw [answered 8 0 1 2 (by decide)] at sum
  cases sum

end VectorBench
