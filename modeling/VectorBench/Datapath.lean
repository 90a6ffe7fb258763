import VectorBench.ElementWidth
import VectorBench.Operation
import VectorBench.VRegFile

/-!
# Datapaths

A datapath turns two operation codes and two words into a word.  The software model applies an
operation to every element packed in the words, each lane on its own, and answers zero for codes
that select nothing.  A faulty datapath differs from the model in one bit of one operation.
-/

namespace VectorBench

/-- The result of the operation that two codes, `funct3` and `funct7`, select on two words. -/
abbrev Datapath := (funct3 funct7 a b : Word) → Word

namespace ElementWidth

def lane (width : ElementWidth) (word : Word) (index : Nat) : BitVec width.bits :=
  word.extractLsb' (index * width.bits) width.bits

def ofLanes (width : ElementWidth) (element : Nat → BitVec width.bits) : Word :=
  (List.range width.lanes).foldl
    (fun word index => word ||| ((element index).setWidth 32 <<< (index * width.bits))) 0

end ElementWidth

def Operation.lanewise (operation : Operation) (width : ElementWidth) (a b : Word) : Word :=
  width.ofLanes fun index => operation.apply (width.lane a index) (width.lane b index)

namespace Datapath

/-- What the model answers for codes that select no operation. -/
def sentinel : Word := 0

def isSupported (funct3 funct7 : Word) : Bool :=
  (Operation.ofFunct3? funct3).isSome && (ElementWidth.ofFunct7? funct7).isSome

def model? (funct3 funct7 a b : Word) : Option Word :=
  match ElementWidth.ofFunct7? funct7, Operation.ofFunct3? funct3 with
  | some width, some operation => some (operation.lanewise width a b)
  | _, _ => none

def model : Datapath := fun funct3 funct7 a b =>
  (model? funct3 funct7 a b).getD sentinel

/-- The model with the low bit of every result of one operation flipped. -/
def flipping (faulty : Word) : Datapath := fun funct3 funct7 a b =>
  if funct3 = faulty then model funct3 funct7 a b ^^^ 1 else model funct3 funct7 a b

def withFault : Option Word → Datapath
  | none => model
  | some faulty => flipping faulty

def onVectors (datapath : Datapath) (funct3 funct7 : Word) (left right : VectorWords) :
    VectorWords :=
  Vector.zipWith (datapath funct3 funct7) left right

end Datapath

end VectorBench
