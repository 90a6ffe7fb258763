import VectorBench.Instruction
import VectorBench.VRegFile

/-!
# Vector operations of a machine

What a program can ask of a machine with vector operations, whatever carries them out.  Operations
change the state of the machine also when they fail.
-/

namespace VectorBench

class VectorOps (σ : Type) where
  /-- Carries out an operation of a class on two words.  Only the classes with scalar operands can
  be asked for; `none` stands for opcode bits that name no class. -/
  issue (opcode : Option OpcodeClass) (funct3 funct7 a b : Word) : σ → Except Fault Word × σ
  /-- Carries out an operation on two vector registers and returns what `vd` then holds. -/
  vectorVector (funct3 funct7 : Word) (vs1 vs2 vd : VReg) : σ → Except Fault VectorWords × σ
  vregs : σ → VRegFile
  setVregs : VRegFile → σ → σ

namespace VectorOps

variable {σ : Type} [VectorOps σ]

def scalarOp (funct3 funct7 a b : Word) : σ → Except Fault Word × σ :=
  issue (some .scalar) funct3 funct7 a b

def load (funct3 funct7 a b : Word) : σ → Except Fault Word × σ :=
  issue (some .load) funct3 funct7 a b

def store (funct3 funct7 a b : Word) : σ → Except Fault Word × σ :=
  issue (some .store) funct3 funct7 a b

def writeRegister (register : VReg) (words : VectorWords) (state : σ) : σ :=
  setVregs ((vregs state).writeRegister register words) state

end VectorOps

def OpcodeClass.hasScalarOperands : OpcodeClass → Bool
  | .load | .store | .scalar => true
  | .vector => false

def issuable (opcode : Option OpcodeClass) : Except Fault OpcodeClass :=
  match opcode with
  | some opcode => if opcode.hasScalarOperands then .ok opcode else .error .unsupportedOpcode
  | none => .error .unsupportedOpcode

end VectorBench
