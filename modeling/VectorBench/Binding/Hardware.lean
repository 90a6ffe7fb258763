import VectorBench.Binding.VectorOps
import VectorBench.Hart.Basic

/-!
# Hardware binding

Operations carried out by encoding an instruction word and giving it to a core.  Codes are cut to
the fields of the word.
-/

namespace VectorBench

class InstructionEmitter (ε : Type) where
  /-- Carries out a word with `a` and `b` in its source registers and returns what its destination
  then holds. -/
  emit (word a b : Word) : ε → Except Fault Word × ε
  emitVector (word : Word) : ε → Except Fault VectorWords × ε
  vregs : ε → VRegFile
  setVregs : VRegFile → ε → ε

instance {H : Type} : InstructionEmitter (Hart H) where
  emit word a b hart := hart.emit word a b
  emitVector word hart := hart.emitVector word
  vregs hart := hart.vregs
  setVregs vregs hart := hart.setVregs vregs

/-- A core seen as a machine with vector operations. -/
structure HardwareBinding (ε : Type) where
  emitter : ε

namespace HardwareBinding

variable {ε : Type}

/-- The word issued for an operation on two words: the operands travel in the argument registers,
the result in the first of them. -/
def scalarWord (opcode : OpcodeClass) (funct3 funct7 : Word) : Word :=
  encodeRegisters opcode funct3 funct7 XReg.a0 XReg.a0 XReg.a1

def vectorWord (funct3 funct7 : Word) (vs1 vs2 vd : VReg) : Word :=
  encodeRegisters .vector funct3 funct7 vd vs1 vs2

def lift {α : Type} (operation : ε → α × ε) (binding : HardwareBinding ε) :
    α × HardwareBinding ε :=
  let (result, emitter) := operation binding.emitter
  (result, { emitter })

instance [InstructionEmitter ε] : VectorOps (HardwareBinding ε) where
  issue opcode funct3 funct7 a b binding :=
    match issuable opcode with
    | .ok opcode => lift (InstructionEmitter.emit (scalarWord opcode funct3 funct7) a b) binding
    | .error fault => (.error fault, binding)
  vectorVector funct3 funct7 vs1 vs2 vd :=
    lift (InstructionEmitter.emitVector (vectorWord funct3 funct7 vs1 vs2 vd))
  vregs binding := InstructionEmitter.vregs binding.emitter
  setVregs vregs binding := { emitter := InstructionEmitter.setVregs vregs binding.emitter }

instance [Clocked ε] : Clocked (HardwareBinding ε) where
  clock binding := Clocked.clock binding.emitter
  advance cycles binding := { emitter := Clocked.advance cycles binding.emitter }

end HardwareBinding

end VectorBench
