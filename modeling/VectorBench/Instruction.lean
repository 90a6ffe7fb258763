import VectorBench.Opcode
import VectorBench.Register

/-!
# Instruction words

A vector instruction has the register layout: from the low bits, an opcode, a destination, a three
bit operation code, two sources and a seven bit variant code.  Splitting a word into its fields and
joining the fields again are inverse to each other.
-/

namespace VectorBench

structure InstructionFields where
  funct7 : BitVec 7
  rs2 : BitVec 5
  rs1 : BitVec 5
  funct3 : BitVec 3
  rd : BitVec 5
  opcode : BitVec 7
deriving DecidableEq, Repr

namespace InstructionFields

def ofWord (word : Word) : InstructionFields where
  funct7 := word.extractLsb' 25 7
  rs2 := word.extractLsb' 20 5
  rs1 := word.extractLsb' 15 5
  funct3 := word.extractLsb' 12 3
  rd := word.extractLsb' 7 5
  opcode := word.extractLsb' 0 7

def toWord (fields : InstructionFields) : Word :=
  fields.funct7 ++ fields.rs2 ++ fields.rs1 ++ fields.funct3 ++ fields.rd ++ fields.opcode

def class? (fields : InstructionFields) : Option OpcodeClass :=
  OpcodeClass.ofBits? fields.opcode

def operationCode (fields : InstructionFields) : Word :=
  fields.funct3.setWidth 32

def variantCode (fields : InstructionFields) : Word :=
  fields.funct7.setWidth 32

def ofNumbers (opcode : OpcodeClass) (funct3 funct7 rd rs1 rs2 : Word) : InstructionFields where
  funct7 := funct7.setWidth 7
  rs2 := rs2.setWidth 5
  rs1 := rs1.setWidth 5
  funct3 := funct3.setWidth 3
  rd := rd.setWidth 5
  opcode := opcode.bits

/-- Splits a word that belongs to a vector opcode class. -/
def decode (word : Word) : Except Fault InstructionFields :=
  match (ofWord word).class? with
  | some _ => .ok (ofWord word)
  | none => .error .unsupportedOpcode

theorem toWord_ofWord (word : Word) : (ofWord word).toWord = word := by
  apply BitVec.eq_of_getLsbD_eq
  intro place inside
  simp only [toWord, ofWord, BitVec.getLsbD_append, BitVec.getLsbD_extractLsb']
  grind

theorem ofWord_toWord (fields : InstructionFields) : ofWord fields.toWord = fields := by
  cases fields
  simp only [toWord, ofWord, InstructionFields.mk.injEq]
  refine ⟨?_, ?_, ?_, ?_, ?_, ?_⟩ <;>
    (apply BitVec.eq_of_getLsbD_eq
     intro place inside
     simp only [BitVec.getLsbD_append, BitVec.getLsbD_extractLsb']
     grind)

end InstructionFields

/-- Encodes an instruction of a class; each number is cut to the width of its field. -/
def encode (opcode : OpcodeClass) (funct3 funct7 rd rs1 rs2 : Word) : Word :=
  (InstructionFields.ofNumbers opcode funct3 funct7 rd rs1 rs2).toWord

def encodeRegisters (opcode : OpcodeClass) (funct3 funct7 : Word) (rd rs1 rs2 : BitVec 5) : Word :=
  encode opcode funct3 funct7 (rd.setWidth 32) (rs1.setWidth 32) (rs2.setWidth 32)

end VectorBench
