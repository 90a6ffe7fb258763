import VectorBench.Instruction

/-!
# Hart configuration

Which instructions the datapath of a hart carries out by itself, and what they cost.
-/

namespace VectorBench

/-- A set of `funct3` codes: bit `f` stands for code `f`. -/
abbrev OperationSet := BitVec 8

/-- Whether a code is in a set; no code above seven is. -/
def OperationSet.has (operations : OperationSet) (funct3 : Word) : Bool :=
  operations.getLsbD funct3.toNat

structure HartConfig where
  hwOps : OperationSet := 0b00000111
  hwLoad : Bool := false
  hwStore : Bool := false
  hwVv : Bool := false
  /-- Cycles of an instruction that the datapath carries out. -/
  opCycles : Nat := 1
  /-- Cycles to enter and leave the trap handler. -/
  trapCycles : Nat := 40
deriving DecidableEq, Repr

namespace HartConfig

def implements (config : HartConfig) (word : Word) : Bool :=
  let fields := InstructionFields.ofWord word
  match fields.class? with
  | some .load => config.hwLoad
  | some .store => config.hwStore
  | some .scalar => OperationSet.has config.hwOps fields.operationCode
  | some .vector => config.hwVv
  | none => false

end HartConfig

end VectorBench
