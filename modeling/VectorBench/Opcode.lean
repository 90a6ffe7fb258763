import VectorBench.Word

/-!
# Opcode classes

Vector instructions live in the four opcode spaces that a base core leaves free, so a core without
the vector unit traps on all of them.
-/

namespace VectorBench

inductive OpcodeClass where
  | load
  | store
  | scalar
  | vector
deriving DecidableEq, Repr

namespace OpcodeClass

def all : List OpcodeClass := [.load, .store, .scalar, .vector]

def bits : OpcodeClass → BitVec 7
  | .load => 0b0001011
  | .store => 0b0101011
  | .scalar => 0b1011011
  | .vector => 0b1111011

def ofBits? (opcode : BitVec 7) : Option OpcodeClass :=
  all.find? (·.bits = opcode)

/-- The class whose opcode bits, as a whole word, are `code`. -/
def ofWord? (code : Word) : Option OpcodeClass :=
  all.find? fun opcode => opcode.bits.setWidth 32 = code

def name : OpcodeClass → String
  | .load => "VecLoad"
  | .store => "VecStore"
  | .scalar => "VecOp"
  | .vector => "VecVecOp"

def ofName? (name : String) : Option OpcodeClass :=
  all.find? (·.name = name)

theorem ofBits?_bits (opcode : OpcodeClass) : ofBits? opcode.bits = some opcode := by
  cases opcode <;> rfl

theorem eq_bits_of_ofBits? {opcode : BitVec 7} {kind : OpcodeClass}
    (selected : ofBits? opcode = some kind) : opcode = kind.bits := by
  have satisfied := List.find?_some selected
  simpa using Eq.symm (of_decide_eq_true satisfied)

end OpcodeClass

end VectorBench
