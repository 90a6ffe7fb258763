import VectorBench.Instruction

/-!
# Fields of encoded instructions

An encoded instruction has the registers it was given, and codes that fit
their fields come back whole.
-/

namespace VectorBench

namespace InstructionFields

variable {opcode : OpcodeClass} {funct3 funct7 : Word} {rd rs1 rs2 : BitVec 5}

theorem ofWord_encodeRegisters :
    ofWord (encodeRegisters opcode funct3 funct7 rd rs1 rs2) =
      { funct7 := funct7.setWidth 7, rs2, rs1, funct3 := funct3.setWidth 3, rd,
        opcode := opcode.bits } := by
  unfold encodeRegisters encode
  rw [ofWord_toWord]
  simp [ofNumbers]

theorem class?_encodeRegisters :
    (ofWord (encodeRegisters opcode funct3 funct7 rd rs1 rs2)).class? =
      some opcode := by
  rw [ofWord_encodeRegisters]
  exact OpcodeClass.ofBits?_bits opcode

theorem rd_encodeRegisters :
    (ofWord (encodeRegisters opcode funct3 funct7 rd rs1 rs2)).rd = rd := by
  rw [ofWord_encodeRegisters]

theorem rs1_encodeRegisters :
    (ofWord (encodeRegisters opcode funct3 funct7 rd rs1 rs2)).rs1 = rs1 := by
  rw [ofWord_encodeRegisters]

theorem rs2_encodeRegisters :
    (ofWord (encodeRegisters opcode funct3 funct7 rd rs1 rs2)).rs2 = rs2 := by
  rw [ofWord_encodeRegisters]

theorem operationCode_encodeRegisters (fits : funct3 < 8) :
    (ofWord (encodeRegisters opcode funct3 funct7 rd rs1 rs2)).operationCode =
      funct3 := by
  rw [ofWord_encodeRegisters]
  apply BitVec.eq_of_toNat_eq
  have below : funct3.toNat < 8 := by simpa [BitVec.lt_def] using fits
  simp only [operationCode, BitVec.toNat_setWidth]
  omega

theorem variantCode_encodeRegisters (fits : funct7 < 128) :
    (ofWord (encodeRegisters opcode funct3 funct7 rd rs1 rs2)).variantCode =
      funct7 := by
  rw [ofWord_encodeRegisters]
  apply BitVec.eq_of_toNat_eq
  have below : funct7.toNat < 128 := by simpa [BitVec.lt_def] using fits
  simp only [variantCode, BitVec.toNat_setWidth]
  omega

end InstructionFields

end VectorBench
