import VectorBench.Binding.VectorOps
import VectorBench.Clock
import VectorBench.Datapath

/-!
# Software binding

Operations carried out by calling a datapath directly, on codes of any size.
-/

namespace VectorBench

/-- A datapath with vector registers of its own. -/
structure SoftwareBinding where
  emulator : Datapath
  registers : VRegFile

namespace SoftwareBinding

def initial (emulator : Datapath) : SoftwareBinding where
  emulator := emulator
  registers := VRegFile.zeroed

instance : VectorOps SoftwareBinding where
  issue opcode funct3 funct7 a b binding :=
    ((issuable opcode).map fun _ => binding.emulator funct3 funct7 a b, binding)
  vectorVector funct3 funct7 vs1 vs2 vd binding :=
    let words := binding.emulator.onVectors funct3 funct7
      (binding.registers.readRegister vs1) (binding.registers.readRegister vs2)
    (.ok words, { binding with registers := binding.registers.writeRegister vd words })
  vregs binding := binding.registers
  setVregs registers binding := { binding with registers }

end SoftwareBinding

/-- A machine state beside a clock that the machine does not touch. -/
structure Timed (σ : Type) where
  machine : σ
  clock : Clock

namespace Timed

instance {σ : Type} : Clocked (Timed σ) where
  clock := Timed.clock
  advance cycles timed := { timed with clock := timed.clock.advance cycles }

def lift {σ α : Type} (operation : σ → α × σ) (timed : Timed σ) : α × Timed σ :=
  let (result, machine) := operation timed.machine
  (result, { timed with machine })

instance {σ : Type} [VectorOps σ] : VectorOps (Timed σ) where
  issue opcode funct3 funct7 a b := lift (VectorOps.issue opcode funct3 funct7 a b)
  vectorVector funct3 funct7 vs1 vs2 vd := lift (VectorOps.vectorVector funct3 funct7 vs1 vs2 vd)
  vregs timed := VectorOps.vregs timed.machine
  setVregs vregs timed := { timed with machine := VectorOps.setVregs vregs timed.machine }

end Timed

end VectorBench
