import VectorBench.Fault
import VectorBench.Text.Numeral

/-!
# Register numbers

There are 32 general purpose registers and 32 vector registers.  A register is named by a five-bit
number, the width of the register fields of an instruction; a number that arrives as a whole word
may name no register at all.
-/

namespace VectorBench

abbrev XReg := BitVec 5

abbrev VReg := BitVec 5

def registerOfNumber? (number : Word) : Option (BitVec 5) :=
  if number < 32 then some (number.setWidth 5) else none

/-- The register that a whole word names; a number of 32 or more is illegal. -/
def registerOfNumber (number : Word) : Except Fault (BitVec 5) :=
  match registerOfNumber? number with
  | some register => .ok register
  | none => .error .illegalRegister

namespace XReg

def zero : XReg := 0

def sp : XReg := 2

def a0 : XReg := 10

def a1 : XReg := 11

def name (register : XReg) : String :=
  "X" ++ Numeral.decimal register.toNat

end XReg

namespace VReg

def name (register : VReg) : String :=
  "v" ++ Numeral.decimal register.toNat

end VReg

end VectorBench
