import VectorBench.Word

/-!
# Lane operations

The eight operations of the vector unit, each a wrapping operation on bit vectors of one width and
each selected by a `funct3` code.
-/

namespace VectorBench

/-- An operation applied to two elements of one width. -/
inductive Operation where
  | add
  | sub
  | and
  | or
  | xor
  | minu
  | maxu
  /-- Low half of the product. -/
  | mul
deriving DecidableEq, Repr

namespace Operation

def all : List Operation := [.add, .sub, .and, .or, .xor, .minu, .maxu, .mul]

def funct3 : Operation → Word
  | .add => 0
  | .sub => 1
  | .and => 2
  | .or => 3
  | .xor => 4
  | .minu => 5
  | .maxu => 6
  | .mul => 7

def ofFunct3? (code : Word) : Option Operation :=
  all.find? (·.funct3 = code)

def name : Operation → String
  | .add => "Add"
  | .sub => "Sub"
  | .and => "And"
  | .or => "Or"
  | .xor => "Xor"
  | .minu => "Minu"
  | .maxu => "Maxu"
  | .mul => "Mul"

def apply {width : Nat} : Operation → BitVec width → BitVec width → BitVec width
  | .add, a, b => a + b
  | .sub, a, b => a - b
  | .and, a, b => a &&& b
  | .or, a, b => a ||| b
  | .xor, a, b => a ^^^ b
  | .minu, a, b => if a ≤ b then a else b
  | .maxu, a, b => if a ≤ b then b else a
  | .mul, a, b => a * b

theorem ofFunct3?_funct3 (operation : Operation) :
    ofFunct3? operation.funct3 = some operation := by
  cases operation <;> rfl

end Operation

end VectorBench
