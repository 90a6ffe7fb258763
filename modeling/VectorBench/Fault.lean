import VectorBench.Text.Hex

/-!
# Faults

Every operation of the bench that can be refused names its cause.  A cause has a numeric code, and
codes also travel on their own: any nonzero word is a code, and the six known ones have a
description.
-/

namespace VectorBench

inductive Fault where
  | unsupportedOpcode
  | nestedTrap
  | illegalRegister
  | invalidVectorConfig
  | vectorLength
  | hartHalted
deriving DecidableEq, Repr

namespace Fault

def all : List Fault :=
  [.unsupportedOpcode, .nestedTrap, .illegalRegister, .invalidVectorConfig, .vectorLength,
    .hartHalted]

def code : Fault → Word
  | .unsupportedOpcode => 0x00010001
  | .nestedTrap => 0x00010002
  | .illegalRegister => 0x00010003
  | .invalidVectorConfig => 0x00020001
  | .vectorLength => 0x00020002
  | .hartHalted => 0x00030001

def description : Fault → String
  | .unsupportedOpcode => "Trapped instruction is not an rvvLite opcode class"
  | .nestedTrap => "Trap taken while another trap was being handled"
  | .illegalRegister => "Register index out of range"
  | .invalidVectorConfig => "Unsupported element width or register grouping"
  | .vectorLength => "Memory operand shorter than the vector length"
  | .hartHalted => "Hart halted after a fatal trap"

theorem code_ne_zero (fault : Fault) : fault.code ≠ 0 := by
  cases fault <;> decide

theorem code_injective {left right : Fault} (same : left.code = right.code) : left = right := by
  revert same
  cases left <;> cases right <;> decide

theorem mem_all (fault : Fault) : fault ∈ all := by
  cases fault <;> decide

def ofCode? (code : Word) : Option Fault :=
  all.find? (·.code = code)

end Fault

/-- A fault code: any word but zero. -/
structure FaultCode where
  value : Word
  ne_zero : value ≠ 0
deriving DecidableEq

namespace FaultCode

def ofWord? (value : Word) : Option FaultCode :=
  if nonzero : value ≠ 0 then some ⟨value, nonzero⟩ else none

def description? (code : FaultCode) : Option String :=
  (Fault.ofCode? code.value).map Fault.description

/-- The code in hexadecimal, followed by its description where there is one. -/
def message (code : FaultCode) : String :=
  match code.description? with
  | some description => Hex.marked code.value ++ " (" ++ description ++ ")"
  | none => Hex.marked code.value

end FaultCode

namespace Fault

def faultCode (fault : Fault) : FaultCode :=
  ⟨fault.code, fault.code_ne_zero⟩

def message (fault : Fault) : String :=
  fault.faultCode.message

end Fault

end VectorBench
