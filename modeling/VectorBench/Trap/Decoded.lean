import VectorBench.Instruction
import VectorBench.Trap.Context

/-!
# Decoded instructions

A trapped instruction word, decoded against the context it trapped in: scalar operands are the
values of the source registers, vector operands are the registers themselves.
-/

namespace VectorBench

inductive Operands where
  | scalar (a b : Word) (rd : XReg)
  | vector (vs1 vs2 vd : VReg)
deriving DecidableEq, Repr

structure DecodedInstruction where
  opcode : OpcodeClass
  fields : InstructionFields
  operands : Operands
deriving DecidableEq, Repr

namespace DecodedInstruction

def encode (instruction : DecodedInstruction) : Word :=
  { instruction.fields with opcode := instruction.opcode.bits }.toWord

def isVectorVector (instruction : DecodedInstruction) : Bool :=
  instruction.opcode = .vector

/-- The general purpose register that receives the result, if one does. -/
def scalarDestination? (instruction : DecodedInstruction) : Option XReg :=
  match instruction.operands with
  | .scalar _ _ rd => some rd
  | .vector _ _ _ => none

end DecodedInstruction

def Operands.resolve (context : TrapContext) (fields : InstructionFields) : OpcodeClass → Operands
  | .vector => .vector fields.rs1 fields.rs2 fields.rd
  | .load | .store | .scalar => .scalar (context.get fields.rs1) (context.get fields.rs2) fields.rd

def decode (word : Word) (context : TrapContext) : Except Fault DecodedInstruction :=
  let fields := InstructionFields.ofWord word
  match fields.class? with
  | some opcode => .ok { opcode, fields, operands := Operands.resolve context fields opcode }
  | none => .error .unsupportedOpcode

end VectorBench
